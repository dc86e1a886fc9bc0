import MonkeyFrontend.Proofs.Text.Integer
import MonkeyFrontend.Proofs.Text.Quoted
import MonkeyFrontend.Proofs.Text.Wording
import MonkeyFrontend.Proofs.Tree.Moved

/-! # The constructor form is a code of trees

Trees that differ in more than positions have different constructor forms.  What is proved by
induction is more: the form of a tree also tells where it ends, whatever stands behind it
(`Expr.told`), so that one slot after the other can be read off a node.  A node begins with its
label and its token (`Expr.inspect_eq`); the label ends at the first parenthesis, and every slot is
again the form of a tree, a quoted text or a word that its closing sign ends.
-/
namespace MonkeyFrontend

/-! ## Words, numbers and tokens -/

/-- Texts that begin with different characters differ, whatever stands behind them. -/
theorem head_ne_of_append {a b x y : String} {c d : Char} (ha : a.toList.head? = some c)
    (hb : b.toList.head? = some d) (h : c ≠ d) : a ++ x ≠ b ++ y := by
  intro heq
  have hhead := congrArg (fun s => s.toList.head?) heq
  simp only [String.toList_append] at hhead
  rw [List.mem_head?_append_of_mem_head? ha, List.mem_head?_append_of_mem_head? hb] at hhead
  exact h (Option.some.inj hhead)

theorem inspectBool_append_inj {v w : Bool} {x y : String}
    (h : inspectBool v ++ x = inspectBool w ++ y) : v = w ∧ x = y := by
  have hhead : ∀ {x y}, inspectBool true ++ x ≠ inspectBool false ++ y :=
    head_ne_of_append (by decide : _ = some 'T') (by decide : _ = some 'F') (by decide)
  cases v <;> cases w
  · exact ⟨rfl, (String.append_right_inj _).mp h⟩
  · exact absurd h.symm hhead
  · exact absurd h hhead
  · exact ⟨rfl, (String.append_right_inj _).mp h⟩

theorem integer_append_inj {v w : Int} {x y : String}
    (h : toString v ++ (")" ++ x) = toString w ++ (")" ++ y)) : v = w ∧ x = y := by
  have hread : ∀ (i : Int) (x : String),
      Text.Reads (Text.integer? (toString i ++ (")" ++ x)).toList) i (")" ++ x).toList := by
    intro i x
    rw [String.toList_append]
    exact Text.reads_integer i (by simp)
  obtain ⟨hvw, hxy⟩ := (hread v x).unique (h ▸ hread w y)
  exact ⟨hvw, (String.append_right_inj _).mp (String.toList_inj.mp hxy)⟩

/-- A kind is told by its text up to the comma and space behind it. -/
theorem Kind.text_append_inj {k l : Kind} {x y : String}
    (h : k.text ++ (", " ++ x) = l.text ++ (", " ++ y)) : k = l ∧ x = y := by
  have hsplit : ∀ k : Kind, ∀ x, k.text ++ (", " ++ x) = (k.text ++ ",") ++ (" " ++ x) := by
    intro k x
    calc k.text ++ (", " ++ x)
      _ = k.text ++ ("," ++ " " ++ x) := by rw [show "," ++ " " = ", " by decide]
      _ = k.text ++ "," ++ (" " ++ x) := by simp only [String.append_assoc]
  have hword : ∀ k : Kind, ' ' ∉ (k.text ++ ",").toList := by
    intro k
    rw [String.toList_append, List.mem_append, not_or]
    exact ⟨k.space_not_mem_text, by decide⟩
  rw [hsplit, hsplit] at h
  obtain ⟨hkl, hxy⟩ := append_sign_inj rfl (hword k) (hword l) h
  exact ⟨Kind.text_injective ((String.append_left_inj _).mp hkl), hxy⟩

/-- The form of a token tells the token, but for its position, and where the form ends. -/
theorem Token.inspect_append_inj {t u : Token} {x y : String}
    (h : t.inspect ++ x = u.inspect ++ y) : t.bare = u.bare ∧ x = y := by
  unfold inspect at h
  simp only [String.append_assoc] at h
  obtain ⟨hkind, h⟩ := Kind.text_append_inj ((String.append_right_inj _).mp h)
  obtain ⟨hliteral, h⟩ := Text.quote_append_inj h
  rw [bare, bare, hkind, hliteral]
  exact ⟨rfl, (String.append_right_inj _).mp h⟩

/-! ## Labels and slots -/

/-- The word that a node begins with in constructor form. -/
def Expr.label : Expr → String
  | .identifier _ => "Identifier"
  | .integer _ _ => "IntegerLiteral"
  | .boolean _ _ => "BooleanLiteral"
  | .unary _ _ _ => "PrefixExpression"
  | .binary _ _ _ _ => "InfixExpression"
  | .conditional _ _ _ _ => "IfExpression"
  | .function _ _ _ => "FunctionLiteral"

/-- The word that a statement begins with in constructor form. -/
def Stmt.label : Stmt → String
  | .letting _ _ _ => "LetStatement"
  | .returning _ _ => "ReturnStatement"
  | .expression _ _ => "ExpressionStatement"
  | .block _ => "BlockStatement"

/-- What stands behind the token of an expression in constructor form. -/
def Expr.slots : Expr → String
  | .identifier i => ", value=" ++ Text.quote i.name ++ ")"
  | .integer _ v => ", value=" ++ toString v ++ ")"
  | .boolean _ v => ", value=" ++ inspectBool v ++ ")"
  | .unary _ o r => ", operator=" ++ Text.quote o ++ ", right=" ++ Expr.inspectOption r ++ ")"
  | .binary _ l o r =>
    ", left=" ++ l.inspect ++ ", operator=" ++ Text.quote o ++ ", right=" ++ Expr.inspectOption r
      ++ ")"
  | .conditional _ c b a =>
    ", condition=" ++ Expr.inspectOption c ++ ", consequence=" ++ b.inspect ++ ", alternative="
      ++ Block.inspectOption a ++ ")"
  | .function _ ps b =>
    ", parameters=[" ++ Identifier.inspectList ps ++ "], body=" ++ b.inspect ++ ")"

/-- What stands behind the token of a block in constructor form. -/
def Block.slots (b : Block) : String := ", statements=[" ++ Stmt.inspectList b.statements ++ "])"

/-- What stands behind the token of a statement in constructor form. -/
def Stmt.slots : Stmt → String
  | .letting _ n v =>
    ", name=" ++ Identifier.inspectOption n ++ ", value=" ++ Expr.inspectOption v ++ ")"
  | .returning _ v => ", value=" ++ Expr.inspectOption v ++ ")"
  | .expression _ v => ", value=" ++ Expr.inspectOption v ++ ")"
  | .block b => b.slots

/-- A word with the sign behind it. -/
theorem opening {w label : String} (h : w = label ++ "(token=") (s : String) :
    w ++ s = label ++ ("(token=" ++ s) := by
  rw [h, String.append_assoc]

/-- A node in constructor form begins with its label and its token. -/
theorem Expr.inspect_eq (e : Expr) :
    e.inspect = e.label ++ ("(token=" ++ (e.token.inspect ++ e.slots)) := by
  cases e with
  | identifier i =>
    unfold Expr.inspect Identifier.inspect label token slots
    simp only [String.append_assoc]
    exact opening (by decide) _
  | integer | boolean | unary | binary | conditional | function =>
    unfold Expr.inspect label token slots
    simp only [String.append_assoc]
    exact opening (by decide) _

theorem Block.inspect_eq (b : Block) :
    b.inspect = "BlockStatement" ++ ("(token=" ++ (b.token.inspect ++ b.slots)) := by
  cases b
  unfold inspect token slots statements
  simp only [String.append_assoc]
  exact opening (by decide) _

theorem Stmt.inspect_eq (s : Stmt) :
    s.inspect = s.label ++ ("(token=" ++ (s.token.inspect ++ s.slots)) := by
  cases s with
  | letting | returning | expression =>
    unfold Stmt.inspect label token slots
    simp only [String.append_assoc]
    exact opening (by decide) _
  | block b => exact b.inspect_eq

/-- A label is one word. -/
theorem Expr.label_word (e : Expr) : '(' ∉ e.label.toList := by
  cases e <;> simp only [label] <;> decide

theorem Stmt.label_word (s : Stmt) : '(' ∉ s.label.toList := by
  cases s <;> simp only [label] <;> decide

/-- Two nodes that are written alike have the same label and the same token, but for its position,
and their slots are written alike. -/
theorem labelled_inj {k l r s x y : String} {t u : Token} (hk : '(' ∉ k.toList) (hl : '(' ∉ l.toList)
    (h : k ++ ("(token=" ++ (t.inspect ++ r)) ++ x = l ++ ("(token=" ++ (u.inspect ++ s)) ++ y) :
    k = l ∧ t.bare = u.bare ∧ r ++ x = s ++ y := by
  simp only [String.append_assoc] at h
  obtain ⟨hkl, h⟩ := append_sign_inj rfl hk hl h
  obtain ⟨htu, h⟩ := Token.inspect_append_inj h
  exact ⟨hkl, htu, h⟩

theorem Expr.node_inj {e f : Expr} {x y : String} (h : e.inspect ++ x = f.inspect ++ y) :
    e.label = f.label ∧ e.token.bare = f.token.bare ∧ e.slots ++ x = f.slots ++ y := by
  rw [e.inspect_eq, f.inspect_eq] at h
  exact labelled_inj e.label_word f.label_word h

theorem Stmt.node_inj {s r : Stmt} {x y : String} (h : s.inspect ++ x = r.inspect ++ y) :
    s.label = r.label ∧ s.token.bare = r.token.bare ∧ s.slots ++ x = r.slots ++ y := by
  rw [s.inspect_eq, r.inspect_eq] at h
  exact labelled_inj s.label_word r.label_word h

theorem Block.node_inj {b c : Block} {x y : String} (h : b.inspect ++ x = c.inspect ++ y) :
    b.token.bare = c.token.bare ∧ b.slots ++ x = c.slots ++ y := by
  rw [b.inspect_eq, c.inspect_eq] at h
  exact (labelled_inj (by decide) (by decide) h).2

/-! ## Things told by their forms -/

section Told

variable {α β : Type} {form : α → String} {key : α → β}

/-- A form tells the key of `a`, and where the form of `a` ends, against any other thing. -/
def Told (form : α → String) (key : α → β) (a : α) : Prop :=
  ∀ ⦃b : α⦄ ⦃x y : String⦄, form a ++ x = form b ++ y → key a = key b ∧ x = y

/-- No form can be taken for an empty slot or for the end of a list. -/
def Fills (form : α → String) : Prop :=
  ∀ a, ∃ c, (form a).toList.head? = some c ∧ c ≠ 'N' ∧ c ≠ ']'

/-- What stands in a slot: a form, or the word for an empty slot. -/
def slot (form : α → String) : Option α → String
  | none => emptySlot
  | some a => form a

/-- Forms, each with a comma and a space before it. -/
def furtherForms (form : α → String) : List α → String
  | [] => ""
  | a :: as => ", " ++ form a ++ furtherForms form as

/-- Forms with a comma and a space between them. -/
def listForms (form : α → String) : List α → String
  | [] => ""
  | a :: as => form a ++ furtherForms form as

theorem slot_append_inj (hfills : Fills form) {v w : Option α} (hv : ∀ a ∈ v, Told form key a)
    {x y : String} (h : slot form v ++ x = slot form w ++ y) : v.map key = w.map key ∧ x = y := by
  have hempty : emptySlot.toList.head? = some 'N' := by decide
  cases v with
  | none =>
    cases w with
    | none => exact ⟨rfl, (String.append_right_inj _).mp h⟩
    | some b =>
      obtain ⟨c, hc, hne, -⟩ := hfills b
      exact absurd h.symm (head_ne_of_append hc hempty hne)
  | some a =>
    cases w with
    | none =>
      obtain ⟨c, hc, hne, -⟩ := hfills a
      exact absurd h (head_ne_of_append hc hempty hne)
    | some b =>
      obtain ⟨hab, hxy⟩ := hv a rfl h
      exact ⟨congrArg some hab, hxy⟩

/-- The text that closes a list, in the place of a further member. -/
theorem close_ne_further {x y : String} (s : String) : "]" ++ x ≠ ", " ++ s ++ y := by
  rw [String.append_assoc]
  exact head_ne_of_append (by decide : _ = some ']') (by decide : _ = some ',') (by decide)

theorem furtherForms_append_inj {as bs : List α} (has : ∀ a ∈ as, Told form key a) {x y : String}
    (h : furtherForms form as ++ ("]" ++ x) = furtherForms form bs ++ ("]" ++ y)) :
    as.map key = bs.map key ∧ x = y := by
  induction as generalizing bs with
  | nil =>
    cases bs with
    | nil => exact ⟨rfl, by simpa [furtherForms] using h⟩
    | cons b bs =>
      simp only [furtherForms, String.empty_append] at h
      exact absurd (h.trans (String.append_assoc ..)) (close_ne_further _)
  | cons a as ih =>
    cases bs with
    | nil =>
      simp only [furtherForms, String.empty_append] at h
      exact absurd (h.symm.trans (String.append_assoc ..)) (close_ne_further _)
    | cons b bs =>
      simp only [furtherForms, String.append_assoc] at h
      obtain ⟨hab, h⟩ := has a List.mem_cons_self ((String.append_right_inj _).mp h)
      obtain ⟨habs, hxy⟩ := ih (fun a' h' => has a' (List.mem_cons_of_mem _ h')) h
      exact ⟨by rw [List.map_cons, List.map_cons, hab, habs], hxy⟩

theorem listForms_append_inj (hfills : Fills form) {as bs : List α}
    (has : ∀ a ∈ as, Told form key a) {x y : String}
    (h : listForms form as ++ ("]" ++ x) = listForms form bs ++ ("]" ++ y)) :
    as.map key = bs.map key ∧ x = y := by
  have hclose : ∀ (b : α) (s x y : String), form b ++ s ++ x ≠ "]" ++ y := by
    intro b s x y
    obtain ⟨c, hc, -, hne⟩ := hfills b
    rw [String.append_assoc]
    exact head_ne_of_append hc (by decide : _ = some ']') hne
  cases as with
  | nil =>
    cases bs with
    | nil => exact ⟨rfl, by simpa [listForms] using h⟩
    | cons b bs =>
      rw [listForms, String.empty_append] at h
      exact absurd h.symm (hclose b _ _ _)
  | cons a as =>
    cases bs with
    | nil =>
      rw [listForms, listForms, String.empty_append] at h
      exact absurd h (hclose a _ _ _)
    | cons b bs =>
      simp only [listForms, String.append_assoc] at h
      obtain ⟨hab, h⟩ := has a List.mem_cons_self h
      obtain ⟨habs, hxy⟩ :=
        furtherForms_append_inj (fun a' h' => has a' (List.mem_cons_of_mem _ h')) h
      exact ⟨by rw [List.map_cons, List.map_cons, hab, habs], hxy⟩

end Told

/-! ## Trees told by their forms -/

theorem Expr.fills : Fills Expr.inspect := by
  intro e
  rw [e.inspect_eq, String.toList_append]
  cases e <;> simp only [label] <;> exact ⟨_, rfl, by decide⟩

theorem Block.fills : Fills Block.inspect := by
  intro b
  rw [b.inspect_eq, String.toList_append]
  exact ⟨_, rfl, by decide⟩

theorem Stmt.fills : Fills Stmt.inspect := by
  intro s
  rw [s.inspect_eq, String.toList_append]
  cases s <;> simp only [label] <;> exact ⟨_, rfl, by decide⟩

theorem Identifier.fills : Fills Identifier.inspect := fun i => Expr.fills (.identifier i)

theorem Identifier.inspectOption_eq (v : Option Identifier) :
    inspectOption v = slot inspect v := by
  cases v <;> rfl

theorem Identifier.inspectList_eq (is : List Identifier) :
    inspectList is = listForms inspect is := by
  induction is with
  | nil => rfl
  | cons i is ih =>
    cases is with
    | nil => exact (String.append_empty ..).symm
    | cons j js =>
      rw [inspectList, ih]
      · simp only [listForms, furtherForms, String.append_assoc]
      · exact List.cons_ne_nil _ _

theorem Expr.inspectOption_eq (v : Option Expr) : inspectOption v = slot inspect v := by
  cases v <;> rfl

theorem Block.inspectOption_eq (v : Option Block) : inspectOption v = slot inspect v := by
  cases v <;> rfl

theorem Stmt.inspectMore_eq (ss : List Stmt) : inspectMore ss = furtherForms inspect ss := by
  induction ss with
  | nil => rfl
  | cons s ss ih => exact congrArg (", " ++ s.inspect ++ ·) ih

theorem Stmt.inspectList_eq (ss : List Stmt) : inspectList ss = listForms inspect ss := by
  cases ss with
  | nil => rfl
  | cons s ss => exact congrArg (s.inspect ++ ·) (inspectMore_eq ss)

theorem Expr.optionMapToken_eq (g : Token → Token) (v : Option Expr) :
    optionMapToken g v = v.map (mapToken g) := by
  cases v <;> rfl

theorem Block.optionMapToken_eq (g : Token → Token) (v : Option Block) :
    optionMapToken g v = v.map (mapToken g) := by
  cases v <;> rfl

theorem Stmt.listMapToken_eq (g : Token → Token) (ss : List Stmt) :
    listMapToken g ss = ss.map (mapToken g) := by
  induction ss with
  | nil => rfl
  | cons s ss ih => exact congrArg (s.mapToken g :: ·) ih

theorem Identifier.told (i : Identifier) :
    Told Identifier.inspect (Identifier.mapToken Token.bare) i := by
  intro j x y h
  obtain ⟨-, htoken, h⟩ := Expr.node_inj (e := .identifier i) (f := .identifier j) h
  unfold Expr.slots at h
  simp only [String.append_assoc] at h
  obtain ⟨hname, h⟩ := Text.quote_append_inj ((String.append_right_inj _).mp h)
  exact ⟨(Identifier.mk.injEq ..).mpr ⟨htoken, hname⟩, (String.append_right_inj _).mp h⟩

/-- Slots with names are told. -/
theorem Identifier.option_append_inj {v w : Option Identifier} {x y : String}
    (h : inspectOption v ++ x = inspectOption w ++ y) :
    v.map (mapToken Token.bare) = w.map (mapToken Token.bare) ∧ x = y := by
  rw [inspectOption_eq, inspectOption_eq] at h
  exact slot_append_inj Identifier.fills (fun i _ => i.told) h

theorem Identifier.list_append_inj {is js : List Identifier} {x y : String}
    (h : inspectList is ++ ("]" ++ x) = inspectList js ++ ("]" ++ y)) :
    is.map (mapToken Token.bare) = js.map (mapToken Token.bare) ∧ x = y := by
  rw [inspectList_eq, inspectList_eq] at h
  exact listForms_append_inj Identifier.fills (fun i _ => i.told) h

/-- Slots with expressions are told when the expressions are. -/
theorem Expr.option_append_inj {v w : Option Expr}
    (hv : ∀ e ∈ v, Told inspect (mapToken Token.bare) e) {x y : String}
    (h : inspectOption v ++ x = inspectOption w ++ y) :
    optionMapToken Token.bare v = optionMapToken Token.bare w ∧ x = y := by
  rw [inspectOption_eq, inspectOption_eq] at h
  rw [optionMapToken_eq, optionMapToken_eq]
  exact slot_append_inj Expr.fills hv h

/-- Slots with blocks are told when the blocks are. -/
theorem Block.option_append_inj {v w : Option Block}
    (hv : ∀ b ∈ v, Told inspect (mapToken Token.bare) b) {x y : String}
    (h : inspectOption v ++ x = inspectOption w ++ y) :
    optionMapToken Token.bare v = optionMapToken Token.bare w ∧ x = y := by
  rw [inspectOption_eq, inspectOption_eq] at h
  rw [optionMapToken_eq, optionMapToken_eq]
  exact slot_append_inj Block.fills hv h

/-- Lists of statements are told when their members are. -/
theorem Stmt.list_append_inj {ss rs : List Stmt}
    (hss : ∀ s ∈ ss, Told inspect (mapToken Token.bare) s) {x y : String}
    (h : inspectList ss ++ ("]" ++ x) = inspectList rs ++ ("]" ++ y)) :
    listMapToken Token.bare ss = listMapToken Token.bare rs ∧ x = y := by
  rw [inspectList_eq, inspectList_eq] at h
  rw [listMapToken_eq, listMapToken_eq]
  exact listForms_append_inj Stmt.fills hss h

mutual

/-- **The form of an expression tells the expression, but for positions, and where it ends.** -/
theorem Expr.told : (e : Expr) → Told Expr.inspect (Expr.mapToken Token.bare) e
  -- Two sorts of nodes never have the same label; in two nodes of one sort the fixed texts and
  -- the slots are cancelled from left to right.
  | .identifier i, f, x, y, h => by
    obtain ⟨hlabel, -, -⟩ := Expr.node_inj h
    cases f with
    | identifier j =>
      obtain ⟨hij, hxy⟩ := i.told h
      exact ⟨congrArg Expr.identifier hij, hxy⟩
    | integer | boolean | unary | binary | conditional | function => simp [Expr.label] at hlabel
  | .integer t v, f, x, y, h => by
    obtain ⟨hlabel, htoken, hslots⟩ := Expr.node_inj h
    cases f with
    | integer u w =>
      unfold Expr.slots at hslots
      simp only [String.append_assoc, String.append_right_inj] at hslots
      obtain ⟨rfl, hxy⟩ := integer_append_inj hslots
      exact ⟨congrArg (Expr.integer · v) htoken, hxy⟩
    | identifier | boolean | unary | binary | conditional | function => simp [Expr.label] at hlabel
  | .boolean t v, f, x, y, h => by
    obtain ⟨hlabel, htoken, hslots⟩ := Expr.node_inj h
    cases f with
    | boolean u w =>
      unfold Expr.slots at hslots
      simp only [String.append_assoc, String.append_right_inj] at hslots
      obtain ⟨rfl, hxy⟩ := inspectBool_append_inj hslots
      exact ⟨congrArg (Expr.boolean · v) htoken, (String.append_right_inj _).mp hxy⟩
    | identifier | integer | unary | binary | conditional | function => simp [Expr.label] at hlabel
  | .unary t o r, f, x, y, h => by
    obtain ⟨hlabel, htoken, hslots⟩ := Expr.node_inj h
    cases f with
    | unary u p q =>
      unfold Expr.slots at hslots
      simp only [String.append_assoc, String.append_right_inj] at hslots
      obtain ⟨ho, hslots⟩ := Text.quote_append_inj hslots
      rw [String.append_right_inj] at hslots
      obtain ⟨hr, hxy⟩ := Expr.option_append_inj (Expr.told_of_mem r) hslots
      exact ⟨(Expr.unary.injEq ..).mpr ⟨htoken, ho, hr⟩, (String.append_right_inj _).mp hxy⟩
    | identifier | integer | boolean | binary | conditional | function =>
      simp [Expr.label] at hlabel
  | .binary t l o r, f, x, y, h => by
    obtain ⟨hlabel, htoken, hslots⟩ := Expr.node_inj h
    cases f with
    | binary u k p q =>
      unfold Expr.slots at hslots
      simp only [String.append_assoc, String.append_right_inj] at hslots
      obtain ⟨hl, hslots⟩ := Expr.told l hslots
      rw [String.append_right_inj] at hslots
      obtain ⟨ho, hslots⟩ := Text.quote_append_inj hslots
      rw [String.append_right_inj] at hslots
      obtain ⟨hr, hxy⟩ := Expr.option_append_inj (Expr.told_of_mem r) hslots
      exact ⟨(Expr.binary.injEq ..).mpr ⟨htoken, hl, ho, hr⟩, (String.append_right_inj _).mp hxy⟩
    | identifier | integer | boolean | unary | conditional | function => simp [Expr.label] at hlabel
  | .conditional t c b a, f, x, y, h => by
    obtain ⟨hlabel, htoken, hslots⟩ := Expr.node_inj h
    cases f with
    | conditional u d k e =>
      unfold Expr.slots at hslots
      simp only [String.append_assoc, String.append_right_inj] at hslots
      obtain ⟨hc, hslots⟩ := Expr.option_append_inj (Expr.told_of_mem c) hslots
      rw [String.append_right_inj] at hslots
      obtain ⟨hb, hslots⟩ := Block.told b hslots
      rw [String.append_right_inj] at hslots
      obtain ⟨ha, hxy⟩ := Block.option_append_inj (Block.told_of_mem a) hslots
      exact ⟨(Expr.conditional.injEq ..).mpr ⟨htoken, hc, hb, ha⟩,
        (String.append_right_inj _).mp hxy⟩
    | identifier | integer | boolean | unary | binary | function => simp [Expr.label] at hlabel
  | .function t ps b, f, x, y, h => by
    obtain ⟨hlabel, htoken, hslots⟩ := Expr.node_inj h
    cases f with
    | function u qs k =>
      unfold Expr.slots at hslots
      rw [show "], body=" = "]" ++ ", body=" by decide] at hslots
      simp only [String.append_assoc, String.append_right_inj] at hslots
      obtain ⟨hps, hslots⟩ := Identifier.list_append_inj hslots
      rw [String.append_right_inj] at hslots
      obtain ⟨hb, hxy⟩ := Block.told b hslots
      exact ⟨(Expr.function.injEq ..).mpr ⟨htoken, hps, hb⟩, (String.append_right_inj _).mp hxy⟩
    | identifier | integer | boolean | unary | binary | conditional => simp [Expr.label] at hlabel
termination_by structural e => e

theorem Expr.told_of_mem : (v : Option Expr) → ∀ e ∈ v,
    Told Expr.inspect (Expr.mapToken Token.bare) e
  | some e, _, rfl => Expr.told e
termination_by structural v => v

theorem Stmt.told : (s : Stmt) → Told Stmt.inspect (Stmt.mapToken Token.bare) s
  | .letting t n v, r, x, y, h => by
    obtain ⟨hlabel, htoken, hslots⟩ := Stmt.node_inj h
    cases r with
    | letting u m w =>
      unfold Stmt.slots at hslots
      simp only [String.append_assoc, String.append_right_inj] at hslots
      obtain ⟨hn, hslots⟩ := Identifier.option_append_inj hslots
      rw [String.append_right_inj] at hslots
      obtain ⟨hv, hxy⟩ := Expr.option_append_inj (Expr.told_of_mem v) hslots
      exact ⟨(Stmt.letting.injEq ..).mpr ⟨htoken, hn, hv⟩, (String.append_right_inj _).mp hxy⟩
    | returning | expression | block => simp [Stmt.label] at hlabel
  | .returning t v, r, x, y, h => by
    obtain ⟨hlabel, htoken, hslots⟩ := Stmt.node_inj h
    cases r with
    | returning u w =>
      unfold Stmt.slots at hslots
      simp only [String.append_assoc, String.append_right_inj] at hslots
      obtain ⟨hv, hxy⟩ := Expr.option_append_inj (Expr.told_of_mem v) hslots
      exact ⟨congrArg₂ Stmt.returning htoken hv, (String.append_right_inj _).mp hxy⟩
    | letting | expression | block => simp [Stmt.label] at hlabel
  | .expression t v, r, x, y, h => by
    obtain ⟨hlabel, htoken, hslots⟩ := Stmt.node_inj h
    cases r with
    | expression u w =>
      unfold Stmt.slots at hslots
      simp only [String.append_assoc, String.append_right_inj] at hslots
      obtain ⟨hv, hxy⟩ := Expr.option_append_inj (Expr.told_of_mem v) hslots
      exact ⟨congrArg₂ Stmt.expression htoken hv, (String.append_right_inj _).mp hxy⟩
    | letting | returning | block => simp [Stmt.label] at hlabel
  | .block b, r, x, y, h => by
    obtain ⟨hlabel, -, -⟩ := Stmt.node_inj h
    cases r with
    | block c =>
      obtain ⟨hbc, hxy⟩ := Block.told b h
      exact ⟨congrArg Stmt.block hbc, hxy⟩
    | letting | returning | expression => simp [Stmt.label] at hlabel
termination_by structural s => s

theorem Stmt.told_of_mem : (ss : List Stmt) → ∀ s ∈ ss,
    Told Stmt.inspect (Stmt.mapToken Token.bare) s
  | [] => List.forall_mem_nil _
  | s :: ss => List.forall_mem_cons.mpr ⟨Stmt.told s, Stmt.told_of_mem ss⟩
termination_by structural ss => ss

theorem Block.told : (b : Block) → Told Block.inspect (Block.mapToken Token.bare) b
  | .mk t ss, .mk u rs, x, y, h => by
    obtain ⟨htoken, hslots⟩ := Block.node_inj h
    unfold Block.slots at hslots
    rw [show "])" = "]" ++ ")" by decide] at hslots
    simp only [String.append_assoc, String.append_right_inj] at hslots
    obtain ⟨hss, hxy⟩ := Stmt.list_append_inj (Stmt.told_of_mem ss) hslots
    exact ⟨congrArg₂ Block.mk htoken hss, (String.append_right_inj _).mp hxy⟩
termination_by structural b => b

theorem Block.told_of_mem : (v : Option Block) → ∀ b ∈ v,
    Told Block.inspect (Block.mapToken Token.bare) b
  | some b, _, rfl => Block.told b
termination_by structural v => v

end

theorem Program.told {p q : Program} (h : p.inspect = q.inspect) :
    p.mapToken Token.bare = q.mapToken Token.bare := by
  unfold inspect at h
  rw [show "])" = "]" ++ ")" by decide] at h
  simp only [String.append_assoc, String.append_right_inj] at h
  exact congrArg Program.mk (Stmt.list_append_inj (Stmt.told_of_mem p.statements) h).1

/-- What two forms tell that are all of a text. -/
theorem Told.eq {α β : Type} {form : α → String} {key : α → β} {a b : α} (ha : Told form key a)
    (h : form a = form b) : key a = key b := by
  have hend : form a ++ "" = form b ++ "" := by rw [h]
  exact (ha hend).1

end MonkeyFrontend
