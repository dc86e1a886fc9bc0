import MonkeyFrontend.Proofs.Tree.Inspect

/-! # The constructor form is faithful to equality

Two trees or tokens are the same, positions left out, exactly when they have the same constructor
form (`TreeOrToken.same_iff_inspect_eq`).  Trees of different sorts, and a tree and a token, are
told apart by the words that their forms begin with; of one sort, the form tells all but the
positions.  Whatever does not look at positions agrees on what is the same.
-/
namespace MonkeyFrontend

/-- Any tree, or a token. -/
inductive TreeOrToken where
  | tree (n : Node)
  | token (t : Token)

namespace TreeOrToken

/-- Whether two of them agree up to positions; a token agrees with no tree. -/
def same : TreeOrToken → TreeOrToken → Bool
  | tree n, tree m => n.same m
  | token t, token u => t.same u
  | _, _ => false

/-- The constructor form. -/
def inspect : TreeOrToken → String
  | tree n => n.inspect
  | token t => t.inspect

/-- The text: a token has no other than its constructor form. -/
def text : TreeOrToken → String
  | tree n => n.render
  | token t => t.inspect

/-- The text of the token that introduced a tree, and that of a token. -/
def literal : TreeOrToken → String
  | tree n => n.tokenLiteral
  | token t => t.literal

/-- The structured data of a tree; a token has none. -/
def data? : TreeOrToken → Option Json
  | tree n => some n.toJson
  | token _ => none

/-- The same with other tokens. -/
def mapToken (g : Token → Token) : TreeOrToken → TreeOrToken
  | tree n => tree (n.mapToken g)
  | token t => token (g t)

/-- The word before the first parenthesis of the constructor form. -/
def label : TreeOrToken → String
  | tree (.program _) => "Program"
  | tree (.statement s) => s.label
  | tree (.expression e) => e.label
  | token _ => "Token"

/-- Up to positions is without positions. -/
theorem same_iff {a b : TreeOrToken} :
    a.same b = true ↔ a.mapToken Token.bare = b.mapToken Token.bare := by
  cases a with
  | token t => cases b <;> simp [same, mapToken, Token.same_iff_bare]
  | tree n =>
    cases b with
    | token u => simp [same, mapToken]
    | tree m =>
      cases n <;> cases m <;>
        simp [same, mapToken, Node.same, Node.mapToken, Program.same, Program.mapToken,
          Stmt.sameList_iff, Stmt.same_iff, Expr.same_iff]

/-- Whatever does not look at positions agrees on trees that are the same. -/
theorem eq_of_same {β : Type} {f : TreeOrToken → β} (hf : ∀ a, f (a.mapToken Token.bare) = f a)
    {a b : TreeOrToken} (h : a.same b = true) : f a = f b := by
  rw [← hf a, same_iff.mp h, hf b]

theorem inspect_bare (a : TreeOrToken) : (a.mapToken Token.bare).inspect = a.inspect := by
  have hbare : ∀ t : Token, t.bare.inspect = t.inspect := fun _ => rfl
  match a with
  | token t => exact hbare t
  | tree (.program p) => exact p.inspect_mapToken hbare
  | tree (.statement s) => exact s.inspect_mapToken hbare
  | tree (.expression e) => exact e.inspect_mapToken hbare

theorem text_bare (a : TreeOrToken) : (a.mapToken Token.bare).text = a.text := by
  have hbare : ∀ t : Token, t.bare.literal = t.literal := fun _ => rfl
  match a with
  | token t => rfl
  | tree (.program p) => exact p.render_mapToken hbare
  | tree (.statement s) => exact s.render_mapToken hbare
  | tree (.expression e) => exact e.render_mapToken hbare

theorem literal_bare (a : TreeOrToken) : (a.mapToken Token.bare).literal = a.literal := by
  have hstatement : ∀ s : Stmt, (s.mapToken Token.bare).token.literal = s.token.literal
    | .letting .. | .returning .. | .expression .. | .block (.mk ..) => rfl
  match a with
  | token t => rfl
  | tree (.program ⟨[]⟩) => rfl
  | tree (.program ⟨s :: _⟩) | tree (.statement s) => exact hstatement s
  | tree (.expression e) => cases e <;> rfl

theorem data?_bare (a : TreeOrToken) :
    (a.mapToken Token.bare).data?.map Json.unplaced = a.data?.map Json.unplaced := by
  match a with
  | token t => rfl
  | tree (.program p) => exact congrArg some p.unplaced_mapToken
  | tree (.statement s) => exact congrArg some s.unplaced_mapToken
  | tree (.expression e) => exact congrArg some e.unplaced_mapToken

/-- The constructor form begins with the label and a parenthesis. -/
theorem inspect_labelled (a : TreeOrToken) : ∃ s, a.inspect = a.label ++ ("(" ++ s) := by
  have hopen : "(token=" = "(" ++ "token=" := by decide
  match a with
  | token t =>
    refine ⟨t.kind.text ++ (", " ++ (Text.quote t.literal ++ ")")), ?_⟩
    unfold inspect label Token.inspect
    rw [show "Token(" = "Token" ++ "(" by decide]
    simp only [String.append_assoc]
  | tree (.program p) =>
    refine ⟨"statements=[" ++ (Stmt.inspectList p.statements ++ "])"), ?_⟩
    unfold inspect label Node.inspect Program.inspect
    rw [show "Program(statements=[" = "Program" ++ ("(" ++ "statements=[") by decide]
    simp only [String.append_assoc]
  | tree (.statement s) =>
    refine ⟨"token=" ++ (s.token.inspect ++ s.slots), ?_⟩
    rw [inspect, Node.inspect, s.inspect_eq, label, hopen, String.append_assoc]
  | tree (.expression e) =>
    refine ⟨"token=" ++ (e.token.inspect ++ e.slots), ?_⟩
    rw [inspect, Node.inspect, e.inspect_eq, label, hopen, String.append_assoc]

theorem label_word (a : TreeOrToken) : '(' ∉ a.label.toList := by
  match a with
  | token t | tree (.program p) => simp only [label]; decide
  | tree (.statement s) => exact s.label_word
  | tree (.expression e) => exact e.label_word

theorem label_eq {a b : TreeOrToken} (h : a.inspect = b.inspect) : a.label = b.label := by
  obtain ⟨s, hs⟩ := a.inspect_labelled
  obtain ⟨r, hr⟩ := b.inspect_labelled
  rw [hs, hr] at h
  exact (append_sign_inj rfl a.label_word b.label_word h).1

theorem told {a b : TreeOrToken} (h : a.inspect = b.inspect) :
    a.mapToken Token.bare = b.mapToken Token.bare := by
  have hlabel := label_eq h
  match a, b with
  | token t, token u =>
    have htoken : Told Token.inspect Token.bare t := fun _ _ _ => Token.inspect_append_inj
    exact congrArg token (htoken.eq h)
  | tree (.program p), tree (.program q) => exact congrArg (tree ∘ Node.program) (Program.told h)
  | tree (.statement s), tree (.statement r) =>
    exact congrArg (tree ∘ Node.statement) ((Stmt.told s).eq h)
  | tree (.expression e), tree (.expression f) =>
    exact congrArg (tree ∘ Node.expression) ((Expr.told e).eq h)
  | token _, tree (.program _) | tree (.program _), token _ => simp [label] at hlabel
  | token _, tree (.statement s) | tree (.program _), tree (.statement s)
  | tree (.statement s), token _ | tree (.statement s), tree (.program _) =>
    cases s <;> simp [label, Stmt.label] at hlabel
  | token _, tree (.expression e) | tree (.program _), tree (.expression e)
  | tree (.expression e), token _ | tree (.expression e), tree (.program _) =>
    cases e <;> simp [label, Expr.label] at hlabel
  | tree (.statement s), tree (.expression e) | tree (.expression e), tree (.statement s) =>
    cases s <;> cases e <;> simp [label, Stmt.label, Expr.label] at hlabel

/-- **The constructor form is a faithful code.**  Two trees or tokens are the same, positions left
out, exactly when they have the same constructor form; and when they are the same, they have the
same text, the same literal, and data that agree apart from lines and columns. -/
theorem same_iff_inspect_eq (a b : TreeOrToken) :
    (a.same b = true ↔ a.inspect = b.inspect) ∧
      (a.same b = true → a.text = b.text ∧ a.literal = b.literal ∧
        a.data?.map Json.unplaced = b.data?.map Json.unplaced) := by
  refine ⟨⟨eq_of_same inspect_bare, fun h => same_iff.mpr (told h)⟩, fun h => ?_⟩
  exact ⟨eq_of_same text_bare h, eq_of_same literal_bare h,
    eq_of_same (f := fun a => a.data?.map Json.unplaced) data?_bare h⟩

/-- A return without its value, on another line. -/
theorem same_iff_inspect_eq_elsewhere :
    let a := tree (.statement (.returning ⟨.returnWord, "return", ⟨1, 1⟩⟩ none))
    let b := tree (.statement (.returning ⟨.returnWord, "return", ⟨7, 3⟩⟩ none))
    a.same b = true ∧ a.inspect = b.inspect ∧ a.text = b.text ∧ a.literal = b.literal ∧
      a.data?.map Json.unplaced = b.data?.map Json.unplaced := by
  intro a b
  have hsame : a.same b = true := by
    simp [a, b, same, Node.same, Stmt.same, Expr.sameOption, Token.same]
  obtain ⟨hinspect, hshown⟩ := same_iff_inspect_eq a b
  exact ⟨hsame, hinspect.mp hsame, hshown hsame⟩

end TreeOrToken

end MonkeyFrontend
