/-
Values that are put into a ring of numbered cells, one after the other, and
keys that remember the cell of their value.  The values are all there until
the ring has gone round; then the keys of two values meet in one cell.
-/
import Mathlib.Data.List.Induction
import Mathlib.Data.List.Nodup
import Mathlib.Data.Nat.ModEq
import NeutronContracts.Lib.KeyValue

universe u v

/-- The cells from `start` to `last`, and the cell that is written next. -/
structure Wheel (V : Type v) where
  cells : Map Nat V
  latest : Option Nat

namespace Wheel

variable {V : Type v} (start last : Nat)

def empty : Wheel V := ⟨Map.empty, none⟩

/-- The cell after `cell`; after the last one the first one follows. -/
def next (cell : Nat) : Nat := if last < cell + 1 then start else cell + 1

/-- The cell that is written next. -/
def position (wheel : Wheel V) : Nat := wheel.latest.getD start

def put (wheel : Wheel V) (value : V) : Wheel V where
  cells := wheel.cells.save (wheel.position start) value
  latest := some (next start last (wheel.position start))

/-- The ring after the values have been put into it, in order. -/
def fill (values : List V) : Wheel V := values.foldl (put start last) empty

/-- The number of cells. -/
def size : Nat := last + 1 - start

/-- The cell of the value number `k`. -/
def cell (k : Nat) : Nat := start + k % size start last

variable {start last} {values : List V} {value : V} {i j k : Nat}

@[simp] theorem fill_nil : fill start last ([] : List V) = empty := rfl

@[simp] theorem fill_append_singleton :
    fill start last (values ++ [value]) =
      (fill start last values).put start last value := by
  simp [fill]

/-- One turn later the same cell is written. -/
theorem cell_add_size :
    cell start last (k + size start last) = cell start last k := by
  simp [cell]

/-- Within one turn the cells differ. -/
theorem cell_ne (hij : i < j) (hj : j < i + size start last) :
    cell start last i ≠ cell start last j := by
  intro hsame
  have hmod : j % size start last = i % size start last := by
    unfold cell at hsame
    omega
  have hdvd : size start last ∣ j - i :=
    (Nat.modEq_iff_dvd' (Nat.le_of_lt hij)).mp hmod.symm
  have hle := Nat.le_of_dvd (by omega) hdvd
  omega

theorem next_cell (h : start ≤ last) :
    next start last (cell start last k) = cell start last (k + 1) := by
  have hpos : 0 < size start last := by unfold size; omega
  have hlt := Nat.mod_lt k hpos
  unfold next cell
  by_cases hone : size start last = 1
  · rw [hone, Nat.mod_one, Nat.mod_one]
    unfold size at hone
    split <;> omega
  · rw [Nat.add_mod_eq_ite, Nat.mod_eq_of_lt (a := 1) (by omega)]
    unfold size at *
    split <;> split <;> omega

/-- The values are counted by the position. -/
theorem position_fill (h : start ≤ last) :
    (fill start last values).position start =
      cell start last values.length := by
  induction values using List.reverseRecOn with
  | nil => simp [position, empty, cell]
  | append_singleton values value ih =>
      rw [fill_append_singleton, List.length_append, List.length_singleton,
        ← next_cell h, ← ih]
      rfl

/-- A value is there until the ring has gone round. -/
theorem fill_cell (h : start ≤ last) (hk : k < values.length)
    (hround : values.length ≤ k + size start last) :
    (fill start last values).cells (cell start last k) =
      some values[k] := by
  induction values using List.reverseRecOn with
  | nil => cases hk
  | append_singleton values value ih =>
      rw [List.length_append, List.length_singleton] at hk hround
      rw [fill_append_singleton]
      change Map.save _ _ _ _ = _
      rw [position_fill h]
      by_cases hlast : k = values.length
      · subst hlast
        rw [Map.save_self, List.getElem_concat_length rfl]
      · have hlt : k < values.length := by omega
        rw [Map.save_of_ne (cell_ne hlt (by omega)), ih hlt (by omega),
          List.getElem_append_left hlt]

end Wheel

/-- A wheel of values whose keys remember their cells. -/
structure Directory (K : Type u) (V : Type v) extends Wheel V where
  cellOf : Map K Nat

namespace Directory

variable {K : Type u} {V : Type v} [DecidableEq K] (start last : Nat)

def empty : Directory K V := ⟨Wheel.empty, Map.empty⟩

/-- Put a value into the next cell, which its key remembers. -/
def enter (directory : Directory K V) (entry : K × V) : Directory K V where
  toWheel := directory.put start last entry.2
  cellOf := directory.cellOf.save entry.1 (directory.position start)

/-- The directory after the entries have been made, in order. -/
def file (entries : List (K × V)) : Directory K V :=
  entries.foldl (enter start last) empty

/-- The value in the cell of a key. -/
def find (directory : Directory K V) (key : K) : Option V :=
  (directory.cellOf key).bind directory.cells

/-- The last value that was entered for each key. -/
def lastOf (entries : List (K × V)) : Map K V :=
  entries.foldl (fun found entry => found.save entry.1 entry.2) Map.empty

variable {start last} {entries : List (K × V)} {entry : K × V}
  {directory : Directory K V} {key other : K} {value : V} {k : Nat}

@[simp] theorem file_append_singleton :
    file start last (entries ++ [entry]) =
      (file start last entries).enter start last entry := by
  simp [file]

@[simp] theorem lastOf_append_singleton :
    lastOf (entries ++ [entry]) = (lastOf entries).save entry.1 entry.2 := by
  simp [lastOf]

theorem find_enter_self :
    (directory.enter start last (key, value)).find key = some value := by
  simp [find, enter, Wheel.put]

/-- No key loses its value, although it may get that of another one. -/
theorem find_enter (h : (directory.find key).isSome = true) :
    ((directory.enter start last entry).find key).isSome = true := by
  obtain ⟨value, hvalue⟩ := Option.isSome_iff_exists.mp h
  obtain ⟨cell, hcell, hcontent⟩ := Option.bind_eq_some_iff.mp hvalue
  have hcells : ∀ c, (directory.cells c).isSome = true →
      ((directory.enter start last entry).cells c).isSome = true := by
    intro c hc
    change (Map.save _ _ _ _).isSome = true
    rw [Map.save_apply]
    split
    · rfl
    · exact hc
  by_cases hkey : key = entry.1
  · subst hkey
    rw [find_enter_self]
    rfl
  · have hkept : (directory.enter start last entry).cellOf key = some cell :=
      (Map.save_of_ne hkey).trans hcell
    rw [find, hkept]
    exact hcells cell (by rw [hcontent]; rfl)

/-- However many entries follow, a key finds a value. -/
theorem find_foldl (h : (directory.find key).isSome = true) :
    ((entries.foldl (enter start last) directory).find key).isSome =
      true := by
  induction entries generalizing directory with
  | nil => exact h
  | cons entry rest ih => exact ih (find_enter h)

theorem find_foldl_of_mem (h : key ∈ entries.map Prod.fst) :
    ((entries.foldl (enter start last) directory).find key).isSome =
      true := by
  induction entries generalizing directory with
  | nil => cases h
  | cons entry rest ih =>
      rw [List.map_cons, List.mem_cons] at h
      rcases h with rfl | h
      · have hfirst : ((directory.enter start last entry).find
            entry.1).isSome = true := by
          rw [find_enter_self]
          rfl
        rw [List.foldl_cons]
        exact find_foldl hfirst
      · exact ih h

theorem file_wheel : (file start last entries).toWheel =
    Wheel.fill start last (entries.map Prod.snd) := by
  induction entries using List.reverseRecOn with
  | nil => rfl
  | append_singleton entries entry ih =>
      rw [file_append_singleton, List.map_append, List.map_singleton,
        Wheel.fill_append_singleton, ← ih]
      rfl

/-- A key remembers the cell of its last entry. -/
theorem cellOf_file (h : start ≤ last) {c : Nat}
    (hcell : (file start last entries).cellOf key = some c) :
    ∃ k, ∃ hk : k < entries.length, c = Wheel.cell start last k ∧
      entries[k].1 = key ∧ lastOf entries key = some entries[k].2 := by
  induction entries using List.reverseRecOn with
  | nil => cases hcell
  | append_singleton entries entry ih =>
      rw [file_append_singleton] at hcell
      change Map.save _ _ _ _ = _ at hcell
      rw [Map.save_apply] at hcell
      split at hcell
      case isTrue hkey =>
          cases hcell
          refine ⟨entries.length, by simp, ?_, ?_, ?_⟩
          · rw [file_wheel, Wheel.position_fill h, List.length_map]
          · rw [List.getElem_concat_length rfl, hkey]
          · rw [List.getElem_concat_length rfl, hkey, lastOf_append_singleton,
              Map.save_self]
      case isFalse hkey =>
          obtain ⟨k, hk, hc, hentry, hfound⟩ := ih hcell
          have hk' : k < (entries ++ [entry]).length := by simp; omega
          have hsame : (entries ++ [entry])[k] = entries[k] :=
            List.getElem_append_left hk
          refine ⟨k, hk', hc, ?_, ?_⟩
          · rw [hsame, hentry]
          · rw [hsame, lastOf_append_singleton, Map.save_of_ne hkey, hfound]

theorem cellOf_isSome :
    ((file start last entries).cellOf key).isSome =
      (lastOf entries key).isSome := by
  induction entries using List.reverseRecOn with
  | nil => rfl
  | append_singleton entries entry ih =>
      rw [file_append_singleton, lastOf_append_singleton]
      change (Map.save _ _ _ _).isSome = _
      rw [Map.save_apply, Map.save_apply]
      split
      · rfl
      · exact ih

/-- While the ring has not gone round, every key finds what was entered for it
last. -/
theorem find_file (h : start ≤ last)
    (hroom : entries.length ≤ Wheel.size start last) (key : K) :
    (file start last entries).find key = lastOf entries key := by
  cases hcell : (file start last entries).cellOf key with
  | none =>
      have hsame : ((file start last entries).cellOf key).isSome =
          (lastOf entries key).isSome := cellOf_isSome
      have hnone : (lastOf entries key).isSome = false := by
        rw [← hsame, hcell]
        rfl
      rw [find, hcell, Option.isSome_eq_false_iff.mp hnone |>
        Option.isNone_iff_eq_none.mp]
      rfl
  | some c =>
      obtain ⟨k, hk, rfl, -, hfound⟩ := cellOf_file h hcell
      rw [find, hcell, hfound, Option.bind_some, file_wheel,
        Wheel.fill_cell h (by simpa using hk) (by simp; omega),
        List.getElem_map]

/-- The last value for a key comes from one of its entries. -/
theorem mem_of_lastOf (hfound : lastOf entries key = some value) :
    (key, value) ∈ entries := by
  induction entries using List.reverseRecOn with
  | nil => cases hfound
  | append_singleton entries entry ih =>
      rw [lastOf_append_singleton, Map.save_apply] at hfound
      split at hfound
      case isTrue hkey =>
          cases hfound
          subst hkey
          exact List.mem_append_right _ List.mem_cons_self
      case isFalse => exact List.mem_append_left _ (ih hfound)

theorem lastOf_isSome :
    (lastOf entries key).isSome = true ↔ key ∈ entries.map Prod.fst := by
  induction entries using List.reverseRecOn with
  | nil => simp [lastOf]
  | append_singleton entries entry ih =>
      rw [lastOf_append_singleton, Map.save_apply, List.map_append,
        List.mem_append, List.map_singleton, List.mem_singleton]
      by_cases hkey : key = entry.1
      · simp [hkey]
      · simp [hkey, ih]

/-- Keys that were entered once remember the cell of that entry. -/
theorem cellOf_of_nodup (h : start ≤ last)
    (hkeys : (entries.map Prod.fst).Nodup) (hk : k < entries.length) :
    (file start last entries).cellOf entries[k].1 =
      some (Wheel.cell start last k) := by
  have hmem : entries[k].1 ∈ entries.map Prod.fst :=
    List.mem_map_of_mem (List.getElem_mem hk)
  have hsome : ((file start last entries).cellOf entries[k].1).isSome :=
    cellOf_isSome.trans (lastOf_isSome.mpr hmem)
  obtain ⟨c, hc⟩ := Option.isSome_iff_exists.mp hsome
  obtain ⟨j, hj, rfl, hsame, -⟩ := cellOf_file h hc
  have hjk : j = k := by
    have hj' : j < (entries.map Prod.fst).length := by simpa using hj
    have hk' : k < (entries.map Prod.fst).length := by simpa using hk
    have hkeys' : (entries.map Prod.fst)[j] = (entries.map Prod.fst)[k] := by
      rw [List.getElem_map, List.getElem_map, hsame]
    exact hkeys.getElem_inj_iff.mp hkeys'
  rw [hc, hjk]

/-- Two entries that are a turn apart find the same value. -/
theorem find_turn (h : start ≤ last) (hkeys : (entries.map Prod.fst).Nodup)
    (hk : k + Wheel.size start last < entries.length) :
    (file start last entries).find entries[k].1 =
      (file start last entries).find entries[k + Wheel.size start last].1 := by
  rw [find, find, cellOf_of_nodup h hkeys (by omega),
    cellOf_of_nodup h hkeys hk, Wheel.cell_add_size]

/-- When no two keys find the same value, the ring has not gone round. -/
theorem length_le_of_apart (h : start ≤ last)
    (hkeys : (entries.map Prod.fst).Nodup)
    (hapart : ∀ key other value,
      (file start last entries).find key = some value →
      (file start last entries).find other = some value → key = other) :
    entries.length ≤ Wheel.size start last := by
  refine Nat.not_lt.mp fun hround => ?_
  have hpos : 0 < Wheel.size start last := by unfold Wheel.size; omega
  have hround' : 0 + Wheel.size start last < entries.length := by omega
  have hmem : entries[0].1 ∈ entries.map Prod.fst :=
    List.mem_map_of_mem (List.getElem_mem _)
  have hfound : ((file start last entries).find entries[0].1).isSome = true :=
    find_foldl_of_mem hmem
  obtain ⟨value, hvalue⟩ := Option.isSome_iff_exists.mp hfound
  -- the first entry and the one that overwrites it find the same value
  have hsame := hapart _ _ _ hvalue
    ((find_turn h hkeys hround').symm.trans hvalue)
  have hlength := entries.length_map (f := Prod.fst)
  have hkeys' : (entries.map Prod.fst)[0] =
      (entries.map Prod.fst)[0 + Wheel.size start last] := by
    rw [List.getElem_map, List.getElem_map]
    exact hsame
  have hindex := hkeys.getElem_inj_iff.mp hkeys'
  omega

end Directory
