import Mathlib

/-!
# Ordered maps

A map that keeps its entries in the order of their keys, with the neighbours of a key at hand.
-/

namespace Foundation

variable {Key Entry : Type*} [LinearOrder Key]

structure OrderedMap (key : Entry → Key) where
  entries : List Entry
  sorted : entries.Pairwise fun first second => key first < key second

/-- A predicate that the earlier entries of a sorted list inherit splits it in two. -/
theorem takeWhile_dropWhile_eq_filter {key : Entry → Key} {entries : List Entry}
    (sorted : entries.Pairwise fun first second => key first < key second)
    {predicate : Entry → Bool}
    (inherited : ∀ first second, key first < key second → predicate second = true →
      predicate first = true) :
    entries.takeWhile predicate = entries.filter predicate ∧
      entries.dropWhile predicate = entries.filter fun entry => !predicate entry := by
  induction entries with
  | nil => exact ⟨rfl, rfl⟩
  | cons entry rest inductionHypothesis =>
      obtain ⟨least, restSorted⟩ := List.pairwise_cons.mp sorted
      obtain ⟨taken, dropped⟩ := inductionHypothesis restSorted
      cases holds : predicate entry with
      | true => simp [holds, taken, dropped]
      | false =>
          have fails : ∀ later ∈ rest, predicate later = false := by
            intro later member
            by_contra passes
            rw [inherited entry later (least later member) (Bool.eq_true_of_not_eq_false passes)]
              at holds
            cases holds
          have none : rest.filter predicate = [] := by
            rw [List.filter_eq_nil_iff]
            intro later member passes
            rw [fails later member] at passes
            cases passes
          have all : rest.filter (fun later => !predicate later) = rest := by
            rw [List.filter_eq_self]
            intro later member
            rw [fails later member]
            rfl
          simp [holds, none, all]

namespace OrderedMap

variable {key : Entry → Key}

def empty : OrderedMap key := ⟨[], List.Pairwise.nil⟩

instance : Membership Entry (OrderedMap key) := ⟨fun map entry => entry ∈ map.entries⟩

/-- What is left after some entries have been taken out. -/
def restrict (map : OrderedMap key) {kept : List Entry} (part : kept.Sublist map.entries) :
    OrderedMap key :=
  ⟨kept, map.sorted.sublist part⟩

variable (map : OrderedMap key) (bound : Key)

/-- The entries before the first one whose key is not below a bound. -/
def below : List Entry := map.entries.takeWhile fun entry => key entry < bound

/-- The entries before the first one whose key is above a bound. -/
def front : List Entry := map.entries.takeWhile fun entry => key entry ≤ bound

/-- The entries from the first one on whose key is above a bound. -/
def back : List Entry := map.entries.dropWhile fun entry => key entry ≤ bound

/-- The entry of a key. -/
def find : Option Entry := map.entries.find? fun entry => key entry = bound

/-- The last entry whose key is not above a bound. -/
def floor : Option Entry := (map.front bound).getLast?

theorem below_eq_filter :
    map.below bound = map.entries.filter fun entry => key entry < bound := by
  refine (takeWhile_dropWhile_eq_filter map.sorted ?_).1
  intro first second less inside
  rw [decide_eq_true_iff] at inside ⊢
  exact less.trans inside

theorem front_back_eq_filter :
    map.front bound = (map.entries.filter fun entry => key entry ≤ bound) ∧
      map.back bound = map.entries.filter fun entry => !decide (key entry ≤ bound) := by
  refine takeWhile_dropWhile_eq_filter map.sorted ?_
  intro first second less inside
  rw [decide_eq_true_iff] at inside ⊢
  exact less.le.trans inside

variable {map bound} {entry other : Entry}

theorem mem_def : entry ∈ map ↔ entry ∈ map.entries := Iff.rfl

theorem mem_below : entry ∈ map.below bound ↔ entry ∈ map ∧ key entry < bound := by
  rw [below_eq_filter, List.mem_filter, decide_eq_true_iff, mem_def]

theorem mem_front : entry ∈ map.front bound ↔ entry ∈ map ∧ key entry ≤ bound := by
  rw [(map.front_back_eq_filter bound).1, List.mem_filter, decide_eq_true_iff, mem_def]

theorem mem_back : entry ∈ map.back bound ↔ entry ∈ map ∧ bound < key entry := by
  rw [(map.front_back_eq_filter bound).2, List.mem_filter, Bool.not_eq_true',
    decide_eq_false_iff_not, not_le, mem_def]

theorem front_append_back : map.front bound ++ map.back bound = map.entries :=
  List.takeWhile_append_dropWhile

theorem front_sorted : (map.front bound).Pairwise fun first second => key first < key second :=
  map.sorted.sublist (List.takeWhile_sublist _)

/-- There is one entry for a key. -/
theorem eq_of_key_eq (entryMember : entry ∈ map) (otherMember : other ∈ map)
    (same : key entry = key other) : entry = other := by
  have distinct : (map.entries.map key).Nodup :=
    List.pairwise_map.mpr (map.sorted.imp fun less => less.ne)
  exact List.inj_on_of_nodup_map distinct entryMember otherMember same

/-- The last entry of a sorted list is the greatest one. -/
theorem getLast?_sorted {entries : List Entry}
    (sorted : entries.Pairwise fun first second => key first < key second)
    (last : entries.getLast? = some entry) :
    entry ∈ entries ∧ ∀ other ∈ entries, key other ≤ key entry := by
  obtain ⟨initial, rfl⟩ := List.getLast?_eq_some_iff.mp last
  have less := (List.pairwise_append.mp sorted).2.2
  refine ⟨List.mem_append_right _ (List.mem_singleton_self entry), ?_⟩
  intro other member
  rcases List.mem_append.mp member with earlier | only
  · exact (less other earlier entry (List.mem_singleton_self entry)).le
  · rw [List.mem_singleton.mp only]

/-- The last entry whose key is not above the bound is the greatest one of them. -/
theorem floor_eq_some_iff :
    map.floor bound = some entry ↔
      entry ∈ map ∧ key entry ≤ bound ∧
        ∀ other ∈ map, key other ≤ bound → key other ≤ key entry := by
  constructor
  · intro last
    obtain ⟨member, greatest⟩ := getLast?_sorted front_sorted last
    obtain ⟨inMap, low⟩ := mem_front.mp member
    exact ⟨inMap, low, fun other inMap low => greatest other (mem_front.mpr ⟨inMap, low⟩)⟩
  · rintro ⟨member, low, greatest⟩
    have inFront := mem_front.mpr ⟨member, low⟩
    cases last : map.floor bound with
    | none =>
        rw [floor, List.getLast?_eq_none_iff] at last
        rw [last] at inFront
        cases inFront
    | some other =>
        obtain ⟨otherInFront, otherGreatest⟩ := getLast?_sorted front_sorted last
        obtain ⟨otherInMap, otherLow⟩ := mem_front.mp otherInFront
        have same := le_antisymm (greatest other otherInMap otherLow) (otherGreatest entry inFront)
        rw [eq_of_key_eq otherInMap member same]

theorem front_split : (map.front bound).dropLast ++ (map.floor bound).toList = map.front bound := by
  rw [floor]
  rcases List.eq_nil_or_concat (map.front bound) with none | ⟨initial, last, split⟩
  · rw [none]
    rfl
  · rw [split, List.concat_eq_append, List.dropLast_concat, List.getLast?_concat]
    rfl

theorem entries_split (map : OrderedMap key) (bound : Key) :
    (map.front bound).dropLast ++ ((map.floor bound).toList ++ map.back bound) = map.entries := by
  rw [← List.append_assoc, front_split, front_append_back]

/-- The entries before the last one whose key is not above the bound. -/
theorem mem_dropLast_front :
    entry ∈ (map.front bound).dropLast ↔
      entry ∈ map ∧ ∃ other ∈ map, key other ≤ bound ∧ key entry < key other := by
  have sorted := @front_sorted _ _ _ _ map bound
  rw [← front_split, List.pairwise_append] at sorted
  constructor
  · intro member
    obtain ⟨inMap, low⟩ := mem_front.mp (List.mem_of_mem_dropLast member)
    cases last : map.floor bound with
    | none =>
        rw [floor, List.getLast?_eq_none_iff] at last
        rw [last] at member
        cases member
    | some other =>
        obtain ⟨otherMember, otherLow, -⟩ := floor_eq_some_iff.mp last
        exact ⟨inMap, other, otherMember, otherLow,
          sorted.2.2 entry member other (Option.mem_toList.mpr last)⟩
  · rintro ⟨member, other, otherMember, low, less⟩
    have inFront := mem_front.mpr ⟨member, less.le.trans low⟩
    rw [← front_split, List.mem_append] at inFront
    rcases inFront with earlier | last
    · exact earlier
    · have greatest := (floor_eq_some_iff.mp (Option.mem_toList.mp last)).2.2 other otherMember low
      exact absurd less (not_lt.mpr greatest)

/-- `map[key] = entry`. -/
def assign (map : OrderedMap key) (entry : Entry) : OrderedMap key where
  entries := map.below (key entry) ++ entry :: map.back (key entry)
  sorted := by
    have belowSorted := map.sorted.sublist
      (List.takeWhile_sublist fun other => decide (key other < key entry))
    have backSorted := map.sorted.sublist
      (List.dropWhile_sublist fun other => decide (key other ≤ key entry))
    apply List.pairwise_append.mpr
    refine ⟨belowSorted, List.pairwise_cons.mpr ⟨?_, backSorted⟩, ?_⟩
    · intro other member
      exact (mem_back.mp member).2
    · intro first firstMember second secondMember
      have firstBelow := (mem_below.mp firstMember).2
      rcases List.mem_cons.mp secondMember with rfl | secondMember
      · exact firstBelow
      · exact firstBelow.trans (mem_back.mp secondMember).2

/-- An assignment replaces the entry of the same key. -/
theorem mem_assign :
    other ∈ map.assign entry ↔ other = entry ∨ (other ∈ map ∧ key other ≠ key entry) := by
  rw [mem_def, assign, List.mem_append, List.mem_cons, mem_below, mem_back]
  constructor
  · rintro (⟨member, less⟩ | rfl | ⟨member, less⟩)
    · exact Or.inr ⟨member, less.ne⟩
    · exact Or.inl rfl
    · exact Or.inr ⟨member, less.ne'⟩
  · rintro (rfl | ⟨member, different⟩)
    · exact Or.inr (Or.inl rfl)
    · rcases lt_or_gt_of_ne different with less | greater
      · exact Or.inl ⟨member, less⟩
      · exact Or.inr (Or.inr ⟨member, greater⟩)

end OrderedMap

end Foundation
