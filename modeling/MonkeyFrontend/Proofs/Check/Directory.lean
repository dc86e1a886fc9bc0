import Mathlib.Data.List.Basic
import MonkeyFrontend.Check.Directory

/-! # Names of files

An ordinary name is a path by itself: it means the file of the directory that has it, there or not
(`Directory.IsName.name_eq`).  Reading by a name looks the name up, and writing under it changes
what is found there and nothing else.
-/
namespace MonkeyFrontend.Directory

variable {d : Directory} {name other : String} {bytes : ByteArray}
  {files : List (String × ByteArray)}

/-- **An ordinary name of a file**: one part of a path that leads to no directory. -/
structure IsName (name : String) : Prop where
  not_step : isStep name.toList = false
  no_slash : '/' ∉ name.toList
  no_null : '\x00' ∉ name.toList

/-- A path without slashes has one part. -/
theorem parts_eq_singleton {cs : List Char} (h : '/' ∉ cs) : parts cs = [cs] := by
  induction cs with
  | nil => rfl
  | cons c cs ih =>
    rw [List.mem_cons, not_or] at h
    have hc : (c == '/') = false := beq_false_of_ne (Ne.symm h.1)
    rw [parts, hc, ih h.2]

namespace IsName

theorem ne_empty (h : IsName name) : name ≠ "" := by
  rintro rfl
  exact absurd h.not_step (by decide)

/-- The path that is a name leads to the file of this name. -/
theorem follow_eq (h : IsName name) (d : Directory) : d.follow [name.toList] = .ok name := by
  have hstep := h.not_step
  simp only [isStep, Bool.or_eq_false_iff] at hstep
  simp [follow, hstep]

theorem name_eq (h : IsName name) (d : Directory) : d.name name = .ok name := by
  have hnull : name.toList.contains '\x00' = false := by
    rw [← Bool.not_eq_true, List.contains_iff_mem]
    exact h.no_null
  have hhead : name.toList.head? ≠ some '/' := fun hc => h.no_slash (List.mem_of_head? hc)
  rw [Directory.name, hnull, if_neg Bool.false_ne_true, if_neg hhead,
    parts_eq_singleton h.no_slash, h.follow_eq]

/-- Reading looks a name up. -/
theorem read_of_none (h : IsName name) (hlook : d.files.lookup name = none) :
    d.read name = .error .noSuchFile := by
  rw [read, h.name_eq]
  simp only [hlook]

theorem read_of_some (h : IsName name) (hlook : d.files.lookup name = some bytes) :
    d.read name = .ok bytes := by
  rw [read, h.name_eq]
  simp only [hlook]

theorem write_eq (h : IsName name) (d : Directory) (bytes : ByteArray) :
    d.write name bytes = .ok ⟨put name bytes d.files⟩ := by
  rw [write, h.name_eq]

end IsName

/-! ## What is under the names -/

/-- What has been put under a name is found there. -/
theorem lookup_put (name : String) (bytes : ByteArray) (files : List (String × ByteArray)) :
    (put name bytes files).lookup name = some bytes := by
  induction files with
  | nil => rw [put, List.lookup_cons_self]
  | cons file files ih =>
    obtain ⟨other, old⟩ := file
    by_cases h : other = name
    · rw [put, if_pos h, List.lookup_cons_self]
    · rw [put, if_neg h, List.lookup_cons, beq_false_of_ne (Ne.symm h)]
      exact ih

/-- Nothing else changes. -/
theorem lookup_put_of_ne (h : other ≠ name) (bytes : ByteArray)
    (files : List (String × ByteArray)) :
    (put name bytes files).lookup other = files.lookup other := by
  induction files with
  | nil =>
    rw [put, List.lookup_cons, beq_false_of_ne h]
  | cons file files ih =>
    obtain ⟨first, old⟩ := file
    by_cases hfirst : first = name
    · subst hfirst
      rw [put, if_pos rfl, List.lookup_cons, List.lookup_cons, beq_false_of_ne h]
    · rw [put, if_neg hfirst, List.lookup_cons, List.lookup_cons, ih]

/-- Bytes replace those that were put before them. -/
theorem put_put (name : String) (bytes more : ByteArray) (files : List (String × ByteArray)) :
    put name more (put name bytes files) = put name more files := by
  induction files with
  | nil => rw [put, put, put, if_pos rfl]
  | cons file files ih =>
    obtain ⟨first, old⟩ := file
    by_cases hfirst : first = name
    · rw [put, if_pos hfirst, put, if_pos rfl, put, if_pos hfirst]
    · rw [put, if_neg hfirst, put, if_neg hfirst, ih, put, if_neg hfirst]

end MonkeyFrontend.Directory
