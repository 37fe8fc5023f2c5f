import BitmapFont.Raster.Sizes
import Mathlib.Data.List.Induction
import Mathlib.Data.List.Nodup

/-!
The sizes of an import.

Sizes are added one by one to a growing list that is searched each time. What comes out
can be told without the search: every size once, where it first stood. Main facts:

* `Raster.FirstOccurrences.addSizes`: what adding keeps, size by size and for a whole
  list;
* `Raster.FirstOccurrences.unique`: there is only one list of first occurrences;
* `Raster.foldl_addSize_foldl`: adding what was added elsewhere before;
* `Raster.collectSizes_firstOccurrences`: the sizes of an import.
-/

namespace BitmapFont.Raster

/-- A list names the sizes of another, each of them once and in the order in which they
first occur there. -/
structure FirstOccurrences (sizes found : List UInt8) : Prop where
  nodup : found.Nodup
  mem_iff : ∀ size, size ∈ found ↔ size ∈ sizes
  ordered : found.Pairwise fun a b => sizes.idxOf a < sizes.idxOf b

section
variable {sizes found other : List UInt8} {size : UInt8}

theorem FirstOccurrences.unique (first : FirstOccurrences sizes found)
    (second : FirstOccurrences sizes other) : found = other := by
  have perm : found.Perm other := by
    rw [List.perm_ext_iff_of_nodup first.nodup second.nodup]
    intro size
    rw [first.mem_iff, second.mem_iff]
  refine perm.eq_of_pairwise ?_ first.ordered second.ordered
  intro a b _ _ before after
  exact absurd after (Nat.lt_asymm before)

theorem firstOccurrences_nil : FirstOccurrences [] [] where
  nodup := .nil
  mem_iff := fun _ => Iff.rfl
  ordered := .nil

/-! ### Adding sizes -/

theorem addSize_of_mem (mem : size ∈ found) : addSize found size = found :=
  if_pos mem

theorem addSize_of_notMem (new : size ∉ found) : addSize found size = found ++ [size] :=
  if_neg new

theorem mem_addSize_iff {a : UInt8} : a ∈ addSize found size ↔ a ∈ found ∨ a = size := by
  by_cases mem : size ∈ found
  · rw [addSize_of_mem mem, iff_self_or]
    rintro rfl
    exact mem
  · rw [addSize_of_notMem mem, List.mem_append, List.mem_singleton]

/-- A size that was there before has its first occurrence before the added one. -/
theorem FirstOccurrences.addSize (first : FirstOccurrences sizes found) (size : UInt8) :
    FirstOccurrences (sizes ++ [size]) (addSize found size) where
  nodup := by
    by_cases mem : size ∈ found
    · rw [addSize_of_mem mem]
      exact first.nodup
    · rw [addSize_of_notMem mem]
      rw [List.nodup_append]
      refine ⟨first.nodup, List.nodup_singleton size, ?_⟩
      intro a memA b memB
      rw [List.mem_singleton.mp memB]
      exact ne_of_mem_of_not_mem memA mem
  mem_iff := by
    intro a
    rw [mem_addSize_iff, first.mem_iff, List.mem_append, List.mem_singleton]
  ordered := by
    have kept : ∀ a ∈ found, (sizes ++ [size]).idxOf a = sizes.idxOf a := by
      intro a mem
      exact List.idxOf_append_of_mem ((first.mem_iff a).mp mem)
    have before : found.Pairwise fun a b =>
        (sizes ++ [size]).idxOf a < (sizes ++ [size]).idxOf b := by
      refine first.ordered.imp_of_mem ?_
      intro a b memA memB lt
      rwa [kept a memA, kept b memB]
    by_cases mem : size ∈ found
    · rwa [addSize_of_mem mem]
    · rw [addSize_of_notMem mem, List.pairwise_append]
      refine ⟨before, List.pairwise_singleton _ _, ?_⟩
      intro a memA b memB
      have new : size ∉ sizes := mt (first.mem_iff size).mpr mem
      have old : sizes.idxOf a < sizes.length :=
        List.idxOf_lt_length_of_mem ((first.mem_iff a).mp memA)
      rw [List.mem_singleton.mp memB, kept a memA, List.idxOf_append_of_notMem new]
      exact Nat.lt_add_right _ old

theorem FirstOccurrences.addSizes (first : FirstOccurrences sizes found) (more : List UInt8) :
    FirstOccurrences (sizes ++ more) (more.foldl Raster.addSize found) := by
  induction more generalizing sizes found with
  | nil => rwa [List.append_nil]
  | cons size rest ih =>
      rw [List.append_cons]
      exact ih (first.addSize size)

theorem mem_foldl_addSize_iff {a : UInt8} {more : List UInt8} :
    a ∈ more.foldl addSize found ↔ a ∈ found ∨ a ∈ more := by
  induction more generalizing found with
  | nil => simp
  | cons size rest ih => rw [List.foldl_cons, ih, mem_addSize_iff, List.mem_cons, or_assoc]

/-- Adding what was added to another list before is adding both lists. -/
theorem foldl_addSize_foldl (found other more : List UInt8) :
    (more.foldl addSize other).foldl addSize found = (other ++ more).foldl addSize found := by
  induction more using List.reverseRecOn with
  | nil => rw [List.append_nil]; rfl
  | append_singleton more size ih =>
      rw [List.foldl_append, List.foldl_cons, List.foldl_nil, ← List.append_assoc,
        List.foldl_append, List.foldl_cons, List.foldl_nil, ← ih]
      by_cases mem : size ∈ more.foldl addSize other
      · have added : size ∈ (more.foldl addSize other).foldl addSize found :=
          mem_foldl_addSize_iff.mpr (.inr mem)
        rw [addSize_of_mem mem, addSize_of_mem added]
      · rw [addSize_of_notMem mem, List.foldl_append]
        rfl

/-- What is added comes after what was there, and the rest is dropped. -/
theorem foldl_addSize_eq_append (found more : List UInt8) :
    more.foldl addSize found =
      found ++ (more.filter fun size => size ∉ found).foldl addSize [] := by
  induction more using List.reverseRecOn with
  | nil => exact (List.append_nil found).symm
  | append_singleton more size ih =>
      rw [List.foldl_append, ih, List.foldl_cons, List.foldl_nil, List.filter_append,
        List.foldl_append]
      by_cases mem : size ∈ found
      · rw [addSize_of_mem (List.mem_append_left _ mem),
          List.filter_cons_of_neg (by simpa using mem)]
        rfl
      · rw [List.filter_cons_of_pos (by simpa using mem)]
        simp only [addSize, List.mem_append, mem, false_or, List.filter_nil, List.foldl_cons,
          List.foldl_nil]
        split
        · rfl
        · exact List.append_assoc ..

end

/-! ### The sizes of an import -/

/-- The sizes that an import starts with. -/
def startingSizes (standard : Bool) : List UInt8 :=
  if standard then standardSizes else []

/-- The starting sizes are first occurrences themselves, whatever they are added to. -/
theorem foldl_addSize_startingSizes (standard : Bool) :
    (startingSizes standard).foldl addSize [] = startingSizes standard ∧
      (startingSizes standard).foldl addSize (startingSizes standard) = startingSizes standard := by
  cases standard
  · decide
  · decide

theorem collectSizes_eq (sizes : List UInt8) (standard : Bool) :
    collectSizes sizes standard = sizes.foldl addSize (startingSizes standard) := rfl

/-- The sizes of an import are the first occurrences among the standard ones, if they are
asked for, and the explicit ones after them: each once, all of them, and in their order.
The standard ones come first then, and the explicit ones that remain follow in theirs. So
sizes may be collected beforehand, again, or part by part. -/
theorem collectSizes_firstOccurrences (sizes : List UInt8) (standard : Bool) :
    (∀ found, FirstOccurrences ((if standard then standardSizes else []) ++ sizes) found ↔
      found = collectSizes sizes standard) ∧
    (∃ rest, collectSizes sizes true = standardSizes ++ rest ∧
      FirstOccurrences (sizes.filter fun size => size ∉ standardSizes) rest) ∧
    collectSizes (collectSizes sizes false) standard = collectSizes sizes standard ∧
    collectSizes (collectSizes sizes standard) standard = collectSizes sizes standard ∧
    ∀ more, collectSizes (sizes ++ more) standard =
      collectSizes (collectSizes sizes standard ++ more) standard := by
  obtain ⟨started, repeated⟩ := foldl_addSize_startingSizes standard
  have collected : FirstOccurrences (startingSizes standard ++ sizes)
      (collectSizes sizes standard) := by
    have first := firstOccurrences_nil.addSizes (startingSizes standard ++ sizes)
    rwa [List.nil_append, List.foldl_append, started] at first
  have again : collectSizes (collectSizes sizes standard) standard =
      collectSizes sizes standard := by
    rw [collectSizes_eq, collectSizes_eq, foldl_addSize_foldl, List.foldl_append, repeated]
  refine ⟨?_, ?_, ?_, again, ?_⟩
  · intro found
    constructor
    · exact fun first => first.unique collected
    · rintro rfl
      exact collected
  · refine ⟨_, foldl_addSize_eq_append standardSizes sizes, ?_⟩
    exact firstOccurrences_nil.addSizes _
  · exact foldl_addSize_foldl (startingSizes standard) [] sizes
  · intro more
    rw [collectSizes_eq, collectSizes_eq (_ ++ more), List.foldl_append, List.foldl_append,
      ← collectSizes_eq, ← collectSizes_eq (collectSizes sizes standard), again]

example : collectSizes [12, 9, 40, 9, 10] true = [10, 12, 14, 16, 18, 24, 32, 9, 40] := by decide

end BitmapFont.Raster
