/-
Reading a store page by page, while it changes.

A reader asks for the entries after the last key it has seen, at most so many
at a time, and stops at a page that is not full.  Between two pages the state
may have changed.  The rules below say that the reader never sees a key twice,
and misses no entry that was there all the time.
-/
import NeutronContracts.Lib.Mirror
import Mathlib.Logic.Relation

namespace Paging

universe u v

variable {S : Type u} {K V E : Type v} [LinearOrder K]

/-- A page as the reader sees it: the rows of a page of the store. -/
structure Paged (view : S → Map K V) (limit : Nat) (row : K × V → E)
    (key : E → K) (read : S → Option K → List E → Prop) : Prop where
  page : ∀ s start rows, read s start rows →
    ∃ range : (view s).Range, rows = (range.page start limit).map row
  key_row : ∀ entry, key (row entry) = entry.1

/-- What a reader gets from page after page, from the state of the first page
to that of the last one. -/
inductive Traversal (read : S → Option K → List E → Prop) (key : E → K)
    (limit : Nat) (Later : S → S → Prop) : S → Option K → List E → S → Prop
  | last {s : S} {start : Option K} {rows : List E}
      (hread : read s start rows) (hshort : rows.length < limit) :
      Traversal read key limit Later s start rows s
  | more {s next final : S} {start : Option K} {rows rest : List E} {row : E}
      (hread : read s start rows) (hlast : rows.getLast? = some row)
      (hlater : Later s next)
      (hrest : Traversal read key limit Later next (some (key row)) rest
        final) :
      Traversal read key limit Later s start (rows ++ rest) final

/-- A key that a reader has not passed. -/
def After (start : Option K) (k : K) : Prop := ∀ s ∈ start, s < k

section

variable {m : Map K V} {range : m.Range} {start : Option K} {limit : Nat}
  {k : K} {value : V} {entry : K × V}

theorem mem_filter_iff :
    entry ∈ range.list.filter (fun entry =>
      start.all fun s => decide (s < entry.1)) ↔
        entry ∈ range.list ∧ After start entry.1 := by
  simp [List.mem_filter, After, Option.all_eq_true]

theorem page_sorted :
    (range.page start limit).Pairwise fun entry later =>
      entry.1 < later.1 :=
  (range.sorted.filter _).take

theorem after_of_mem_page (h : entry ∈ range.page start limit) :
    After start entry.1 :=
  (mem_filter_iff.mp (List.mem_of_mem_take h)).2

/-- A page that is not full has everything that is left. -/
theorem mem_page_of_short (hshort : (range.page start limit).length < limit)
    (hmem : m k = some value) (hafter : After start k) :
    (k, value) ∈ range.page start limit := by
  have hall : (k, value) ∈ range.list.filter (fun entry =>
      start.all fun s => decide (s < entry.1)) :=
    mem_filter_iff.mpr ⟨(range.complete k value).mpr hmem, hafter⟩
  unfold Map.Range.page at hshort ⊢
  rw [List.length_take] at hshort
  rwa [List.take_of_length_le (by omega)]

/-- A page has every entry up to its last one. -/
theorem mem_page_of_le (hlast : (range.page start limit).getLast? = some entry)
    (hmem : m k = some value) (hafter : After start k) (hle : k ≤ entry.1) :
    (k, value) ∈ range.page start limit := by
  have hall : (k, value) ∈ range.list.filter (fun entry =>
      start.all fun s => decide (s < entry.1)) :=
    mem_filter_iff.mpr ⟨(range.complete k value).mpr hmem, hafter⟩
  have hsorted := range.sorted.filter fun entry =>
    start.all fun s => decide (s < entry.1)
  have hentry := List.mem_of_getLast? hlast
  unfold Map.Range.page at hentry ⊢
  rw [← List.take_append_drop limit (range.list.filter _)] at hall hsorted
  rcases List.mem_append.mp hall with htake | hdrop
  · exact htake
  · have hlt := (List.pairwise_append.mp hsorted).2.2 entry hentry _ hdrop
    exact absurd hle (not_le_of_gt hlt)

end

section

variable {view : S → Map K V} {limit : Nat} {row : K × V → E} {key : E → K}
  {read : S → Option K → List E → Prop} {Later : S → S → Prop}
  {s final : S} {start : Option K} {rows : List E}

namespace Traversal

omit [LinearOrder K] in
/-- The state of the last page comes after that of the first one. -/
theorem reaches (h : Traversal read key limit Later s start rows final) :
    Relation.ReflTransGen Later s final := by
  induction h with
  | last hread hshort => exact .refl
  | more hread hlast hlater hrest ih => exact .head hlater ih

theorem after (hpaged : Paged view limit row key read)
    (h : Traversal read key limit Later s start rows final) :
    ∀ r ∈ rows, After start (key r) := by
  have hpage : ∀ {s start rows}, read s start rows →
      ∀ r ∈ rows, After start (key r) := by
    intro s start rows hread r hr
    obtain ⟨range, rfl⟩ := hpaged.page s start rows hread
    obtain ⟨entry, hentry, rfl⟩ := List.mem_map.mp hr
    rw [hpaged.key_row]
    exact after_of_mem_page hentry
  induction h with
  | last hread hshort => exact hpage hread
  | more hread hlast hlater hrest ih =>
      intro r hr
      rcases List.mem_append.mp hr with hr | hr
      · exact hpage hread r hr
      · intro bound hbound
        have hfirst := hpage hread _ (List.mem_of_getLast? hlast) bound hbound
        exact hfirst.trans (ih r hr _ rfl)

/-- The keys come in order, none of them twice. -/
theorem sorted (hpaged : Paged view limit row key read)
    (h : Traversal read key limit Later s start rows final) :
    rows.Pairwise fun r later => key r < key later := by
  have hpage : ∀ {s start rows}, read s start rows →
      rows.Pairwise fun r later => key r < key later := by
    intro s start rows hread
    obtain ⟨range, rfl⟩ := hpaged.page s start rows hread
    rw [List.pairwise_map]
    simp only [hpaged.key_row]
    exact page_sorted
  induction h with
  | last hread hshort => exact hpage hread
  | @more s next final start rows rest row hread hlast hlater hrest ih =>
      refine List.pairwise_append.mpr ⟨hpage hread, ih, fun r hr later
        hmem => ?_⟩
      have hnext := hrest.after hpaged later hmem _ rfl
      obtain ⟨front, rfl⟩ := List.getLast?_eq_some_iff.mp hlast
      rcases List.mem_append.mp hr with hfront | hlast
      · have hle := (List.pairwise_append.mp (hpage hread)).2.2 r hfront row
          (by simp)
        exact hle.trans hnext
      · rw [List.mem_singleton.mp hlast]
        exact hnext

/-- An entry that stays, while its value changes in one direction only, is
read once it is passed. -/
theorem complete (hpaged : Paged view limit row key read) (Inv : S → Prop)
    (hkeep : ∀ s s', Inv s → Later s s' → Inv s') (R : V → V → Prop)
    (hrefl : ∀ v, R v v) (htrans : ∀ a b c, R a b → R b c → R a c) {k : K}
    (hstay : ∀ s s' v, Inv s → Later s s' → view s k = some v →
      ∃ v', view s' k = some v' ∧ R v v')
    (h : Traversal read key limit Later s start rows final) (hinv : Inv s)
    {v : V}
    (hmem : view s k = some v) (hafter : After start k) :
    ∃ v', row (k, v') ∈ rows ∧ R v v' := by
  induction h generalizing v with
  | @last s start rows hread hshort =>
      obtain ⟨range, rfl⟩ := hpaged.page s start rows hread
      rw [List.length_map] at hshort
      exact ⟨v, List.mem_map_of_mem (mem_page_of_short hshort hmem hafter),
        hrefl v⟩
  | @more s next final start rows rest last hread hlast hlater hrest ih =>
      by_cases hle : k ≤ key last
      · obtain ⟨range, rfl⟩ := hpaged.page s start rows hread
        rw [List.getLast?_map, Option.map_eq_some_iff] at hlast
        obtain ⟨entry, hentry, rfl⟩ := hlast
        rw [hpaged.key_row] at hle
        exact ⟨v, List.mem_append_left _ (List.mem_map_of_mem
          (mem_page_of_le hentry hmem hafter hle)), hrefl v⟩
      · obtain ⟨middle, hnext, hmiddle⟩ := hstay s next v hinv hlater hmem
        have hpassed : After (some (key last)) k := by
          intro bound hbound
          cases hbound
          exact lt_of_not_ge hle
        obtain ⟨v', hv', hR⟩ := ih (hkeep s next hinv hlater) hnext hpassed
        exact ⟨v', List.mem_append_right _ hv', htrans _ _ _ hmiddle hR⟩

/-- What is read was there at some time between the first and the last page. -/
theorem held (hpaged : Paged view limit row key read)
    (h : Traversal read key limit Later s start rows final) :
    ∀ r ∈ rows, ∃ s' v, Relation.ReflTransGen Later s s' ∧
      Relation.ReflTransGen Later s' final ∧
      view s' (key r) = some v ∧ r = row (key r, v) := by
  have hpage : ∀ {s start rows}, read s start rows → ∀ r ∈ rows,
      ∃ v, view s (key r) = some v ∧ r = row (key r, v) := by
    intro s start rows hread r hr
    obtain ⟨range, rfl⟩ := hpaged.page s start rows hread
    obtain ⟨⟨k, v⟩, hentry, rfl⟩ := List.mem_map.mp hr
    rw [hpaged.key_row]
    exact ⟨v, Map.Range.mem_of_page hentry, rfl⟩
  induction h with
  | last hread hshort =>
      intro r hr
      obtain ⟨v, hv, hrow⟩ := hpage hread r hr
      exact ⟨_, v, .refl, .refl, hv, hrow⟩
  | more hread hlast hlater hrest ih =>
      intro r hr
      rcases List.mem_append.mp hr with hr | hr
      · obtain ⟨v, hv, hrow⟩ := hpage hread r hr
        exact ⟨_, v, .refl, .head hlater hrest.reaches, hv, hrow⟩
      · obtain ⟨s', v, hreach, hfinal, hv, hrow⟩ := ih r hr
        exact ⟨s', v, .head hlater hreach, hfinal, hv, hrow⟩

end Traversal

end

end Paging
