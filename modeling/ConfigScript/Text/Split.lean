/-!
# Cutting text

Fixed pieces taken off the start or the end of a text, the cuts at the first occurrence of a piece
and at the last of a character, and the pieces between separators.
-/

namespace ConfigScript.Text

/-- What follows `piece` in a text that starts with it. -/
def dropStart? : List Char → List Char → Option (List Char)
  | [], cs => some cs
  | _ :: _, [] => none
  | p :: piece, c :: cs => if p = c then dropStart? piece cs else none

theorem dropStart?_eq_some_iff {piece cs rest : List Char} :
    dropStart? piece cs = some rest ↔ cs = piece ++ rest := by
  fun_induction dropStart? piece cs with
  | case1 cs => simp
  | case2 => simp
  | case3 c piece cs ih => simp [ih]
  | case4 p piece c cs hne => simp [Ne.symm hne]

/-- What precedes `piece` in a text that ends with it. -/
def dropEnd? (piece cs : List Char) : Option (List Char) :=
  (dropStart? piece.reverse cs.reverse).map List.reverse

/-- The text before and after the first occurrence of `piece`. -/
def cutAt? (piece : List Char) : List Char → Option (List Char × List Char)
  | [] => (dropStart? piece []).map fun rest => ([], rest)
  | c :: cs =>
    match dropStart? piece (c :: cs) with
    | some rest => some ([], rest)
    | none => (cutAt? piece cs).map fun (before, after) => (c :: before, after)

theorem eq_append_of_cutAt? {piece cs before after : List Char}
    (h : cutAt? piece cs = some (before, after)) : cs = before ++ piece ++ after := by
  fun_induction cutAt? piece cs generalizing before after with
  | case1 =>
    obtain ⟨rest, hrest, heq⟩ := Option.map_eq_some_iff.mp h
    simp_all [dropStart?_eq_some_iff]
  | case2 c cs rest hrest => simp_all [dropStart?_eq_some_iff]
  | case3 c cs hnone ih =>
    obtain ⟨⟨earlier, rest⟩, hcut, heq⟩ := Option.map_eq_some_iff.mp h
    simp only [Prod.mk.injEq] at heq
    obtain ⟨rfl, rfl⟩ := heq
    simp [ih hcut]

/-- The text before and after the last occurrence of a character. -/
def cutAtLast? (separator : Char) (cs : List Char) : Option (List Char × List Char) :=
  let after := (cs.reverse.takeWhile (· != separator)).reverse
  match (cs.reverse.dropWhile (· != separator)) with
  | [] => none
  | _ :: before => some (before.reverse, after)

/-- The pieces of a text between separators; a text without any is one piece. -/
def segments (separator : Char) : List Char → List (List Char)
  | [] => [[]]
  | c :: cs =>
    if c = separator then [] :: segments separator cs
    else match segments separator cs with
      | segment :: rest => (c :: segment) :: rest
      | [] => [[c]]

theorem segments_ne_nil (separator : Char) (cs : List Char) : segments separator cs ≠ [] := by
  cases cs with
  | nil => simp [segments]
  | cons c cs =>
    unfold segments
    split
    · simp
    · split <;> simp

/-- Separators apart, every character of a text stands in one of its pieces. -/
theorem mem_segments {separator c : Char} {cs : List Char} (h : c ∈ cs) :
    c = separator ∨ ∃ segment ∈ segments separator cs, c ∈ segment := by
  induction cs with
  | nil => cases h
  | cons head tail ih =>
    unfold segments
    split
    · rename_i heq
      cases List.mem_cons.mp h with
      | inl hhead => exact .inl (hhead.trans heq)
      | inr htail => grind
    · split
      · rename_i segment rest heq
        cases List.mem_cons.mp h with
        | inl hhead => exact .inr ⟨head :: segment, List.mem_cons_self, by simp [hhead]⟩
        | inr htail =>
          rw [heq] at ih
          grind
      · rename_i heq
        exact absurd heq (segments_ne_nil separator tail)

end ConfigScript.Text
