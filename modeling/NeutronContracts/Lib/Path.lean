/-
Texts cut at their first separators.
-/
import NeutronContracts.Lib.Text
import Mathlib.Data.List.TakeWhile

namespace Text

/-- At most `n` pieces; the last one is all the text that is left. -/
def splitnChars (sep : Char) : Nat → List Char → List (List Char)
  | 0, _ => []
  | 1, chars => [chars]
  | n + 2, chars =>
      match chars.dropWhile (· != sep) with
      | [] => [chars]
      | _ :: after =>
          chars.takeWhile (· != sep) :: splitnChars sep (n + 1) after

/-- `str::splitn` -/
def splitn (sep : Char) (n : Nat) (s : String) : List String :=
  (splitnChars sep n s.toList).map String.ofList

variable {sep : Char}

theorem sep_not_mem_takeWhile (chars : List Char) :
    sep ∉ chars.takeWhile (· != sep) := fun h => by
  simpa using List.mem_takeWhile_imp h

/-- What is dropped up to the first separator begins with it. -/
theorem eq_of_dropWhile {chars after : List Char} {c : Char}
    (h : chars.dropWhile (· != sep) = c :: after) :
    chars = chars.takeWhile (· != sep) ++ sep :: after := by
  have hc : c = sep := by
    have hne : chars.dropWhile (· != sep) ≠ [] :=
      h ▸ List.cons_ne_nil c after
    have hhead := List.head_dropWhile_not (· != sep) hne
    simp only [h, List.head_cons] at hhead
    simpa using hhead
  calc chars
      = chars.takeWhile (· != sep) ++ chars.dropWhile (· != sep) :=
        (List.takeWhile_append_dropWhile).symm
    _ = _ := by rw [h, hc]

theorem sep_not_mem_of_dropWhile {chars : List Char}
    (h : chars.dropWhile (· != sep) = []) : sep ∉ chars := by
  intro hmem
  simpa using List.dropWhile_eq_nil_iff.mp h sep hmem

/-- The texts before the first separators and those after them are the same. -/
theorem eq_of_append_sep {first second rest rest' : List Char}
    (hfirst : sep ∉ first) (hsecond : sep ∉ second)
    (h : first ++ sep :: rest = second ++ sep :: rest') :
    first = second ∧ rest = rest' := by
  induction first generalizing second with
  | nil =>
      cases second with
      | nil => exact ⟨rfl, List.tail_eq_of_cons_eq h⟩
      | cons c tail =>
          obtain rfl := List.head_eq_of_cons_eq h
          exact absurd List.mem_cons_self hsecond
  | cons c tail ih =>
      cases second with
      | nil =>
          obtain rfl := List.head_eq_of_cons_eq h
          exact absurd List.mem_cons_self hfirst
      | cons d tail' =>
          obtain rfl := List.head_eq_of_cons_eq h
          obtain ⟨htail, hrest⟩ := ih
            (fun hmem => hfirst (List.mem_cons_of_mem _ hmem))
            (fun hmem => hsecond (List.mem_cons_of_mem _ hmem))
            (List.tail_eq_of_cons_eq h)
          exact ⟨congrArg _ htail, hrest⟩

/-- A text has as many pieces as may be when it is these pieces joined, all
but the last without separator. -/
theorem splitnChars_eq_iff {n : Nat} {chars : List Char}
    {pieces : List (List Char)} (hlen : pieces.length = n + 1) :
    splitnChars sep (n + 1) chars = pieces ↔
      chars = [sep].intercalate pieces ∧
        ∀ piece ∈ pieces.dropLast, sep ∉ piece := by
  induction n generalizing chars pieces with
  | zero =>
      obtain ⟨piece, rfl⟩ := List.length_eq_one_iff.mp hlen
      simp [splitnChars]
  | succ n ih =>
      obtain ⟨piece, rest, rfl⟩ := List.exists_cons_of_length_eq_add_one hlen
      have hrest : rest.length = n + 1 := by simpa using hlen
      have hne : rest ≠ [] := List.ne_nil_of_length_eq_add_one hrest
      have hjoin : [sep].intercalate (piece :: rest) =
          piece ++ sep :: [sep].intercalate rest := by
        rw [List.intercalate_cons_of_ne_nil hne]
        simp
      have hlast : (piece :: rest).dropLast = piece :: rest.dropLast :=
        List.dropLast_cons_of_ne_nil hne
      rw [hjoin, hlast, List.forall_mem_cons]
      cases hdrop : chars.dropWhile (· != sep) with
      | nil =>
          -- without a separator the text is its only piece
          have hnone := sep_not_mem_of_dropWhile hdrop
          constructor
          · intro h
            rw [splitnChars, hdrop] at h
            have := congrArg List.length h
            simp [hrest] at this
          · rintro ⟨rfl, -⟩
            exact absurd (by simp) hnone
      | cons c after =>
          have hchars := eq_of_dropWhile hdrop
          have hbefore : sep ∉ chars.takeWhile (· != sep) :=
            sep_not_mem_takeWhile chars
          have hsplit : splitnChars sep (n + 1 + 1) chars =
              chars.takeWhile (· != sep) ::
                splitnChars sep (n + 1) after := by
            rw [splitnChars, hdrop]
          rw [hsplit, List.cons.injEq, ih hrest]
          constructor
          · rintro ⟨hpiece, hafter, hothers⟩
            refine ⟨?_, hpiece ▸ hbefore, hothers⟩
            rw [← hpiece, ← hafter]
            exact hchars
          · rintro ⟨heq, hpiece, hothers⟩
            obtain ⟨hsame, hafter⟩ :=
              eq_of_append_sep hbefore hpiece (hchars.symm.trans heq)
            exact ⟨hsame, hafter, hothers⟩

/-- Three pieces: two separators are found, and the third piece may have
more. -/
theorem splitn_three_iff {s first second third : String} :
    splitn sep 3 s = [first, second, third] ↔
      s = join sep [first, second, third] ∧ sep ∉ first.toList ∧
        sep ∉ second.toList := by
  have hmap : splitn sep 3 s = [first, second, third] ↔
      splitnChars sep (2 + 1) s.toList =
        [first.toList, second.toList, third.toList] := by
    constructor
    · intro h
      have hlists := congrArg (List.map String.toList) h
      simpa [splitn, List.map_map, Function.comp_def] using hlists
    · intro h
      simp [splitn, h]
  rw [hmap, splitnChars_eq_iff rfl, join, ← String.toList_inj]
  simp

end Text
