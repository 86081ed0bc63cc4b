import QboxPlatform.Foundation.Bytes
import QboxPlatform.Foundation.OrderedMap
import QboxPlatform.Foundation.Run

/-!
# The cache of direct memory grants

The native engine keeps the grants of its bus in a map ordered by their first address.  A lookup
tries the last grant that starts at or below the address; an invalidation starts there too, and
does not come to grants that start before it.
-/

namespace QboxPlatform.Cc3xx

open Foundation

/-- `tlm_dmi`: a host pointer, the addresses it covers, both ends included, and what it may be
used for. -/
structure Dmi where
  pointer : BitVec 64
  startAddress : BitVec 64
  endAddress : BitVec 64
  isReadAllowed : Bool
  isWriteAllowed : Bool
  deriving DecidableEq

def Dmi.isNoneAllowed (dmi : Dmi) : Bool := !dmi.isReadAllowed && !dmi.isWriteAllowed

/-- `std::map`, keyed by the first address. -/
abbrev DmiCache := OrderedMap fun dmi : Dmi => dmi.startAddress.toNat

namespace DmiCache

variable (cache : DmiCache)

def dmiCacheLookup (address : BitVec 64) (len : BitVec 32) : Option Dmi :=
  if len = 0 ∨ BitVec.allOnes 64 - (len - 1).setWidth 64 < address then none
  else
    match cache.floor address.toNat with
    | none => none
    | some dmi =>
        let last := address + len.setWidth 64 - 1
        if dmi.startAddress ≤ address ∧ last ≤ dmi.endAddress then some dmi else none

/-- The grant that a request gets from the bus. -/
def grantOf (len : BitVec 32) (answer : Option Dmi) : Option Dmi :=
  if len = 0 then none else answer.filter fun dmi => !dmi.isNoneAllowed

/-- `request_dmi_cache`, with what the bus answers. -/
def requestDmiCache (len : BitVec 32) (answer : Option Dmi) : DmiCache :=
  match grantOf len answer with
  | none => cache
  | some dmi =>
      match cache.find dmi.startAddress.toNat with
      | none => cache.assign dmi
      | some old => if old.endAddress = dmi.endAddress then cache else cache.assign dmi

/-- The loop of `invalidate_direct_mem_ptr` over the rest of the map. -/
def eraseLoop (first last : BitVec 64) : List Dmi → List Dmi
  | [] => []
  | dmi :: rest =>
      if last < dmi.startAddress then dmi :: rest
      else if dmi.endAddress < first then dmi :: eraseLoop first last rest
      else eraseLoop first last rest

theorem eraseLoop_sublist (first last : BitVec 64) (entries : List Dmi) :
    (eraseLoop first last entries).Sublist entries := by
  induction entries with
  | nil => exact List.Sublist.refl _
  | cons dmi rest inductionHypothesis =>
      rw [eraseLoop]
      split_ifs
      · exact List.Sublist.refl _
      · exact inductionHypothesis.cons_cons dmi
      · exact inductionHypothesis.cons dmi

/-- The loop starts at the last entry that starts at or below the first address, if there is one,
and at the first entry of the map else. -/
theorem invalidated_sublist (first last : BitVec 64) :
    ((cache.front first.toNat).dropLast ++
      eraseLoop first last ((cache.floor first.toNat).toList ++ cache.back first.toNat)).Sublist
        cache.entries := by
  have part := List.Sublist.append_left
    (eraseLoop_sublist first last ((cache.floor first.toNat).toList ++ cache.back first.toNat))
    (cache.front first.toNat).dropLast
  rwa [cache.entries_split] at part

def invalidateDirectMemPtr (first last : BitVec 64) : DmiCache :=
  cache.restrict (cache.invalidated_sublist first last)

/-! ### What the operations do -/

/-- A grant covers the bytes of an access. -/
def Covers (dmi : Dmi) (address : BitVec 64) (len : BitVec 32) : Prop :=
  ∀ offset < len.toNat, dmi.startAddress.toNat ≤ address.toNat + offset ∧
    address.toNat + offset ≤ dmi.endAddress.toNat

/-- A grant and a range have an address in common. -/
def Meets (dmi : Dmi) (first last : BitVec 64) : Prop :=
  ∃ address : BitVec 64, dmi.startAddress ≤ address ∧ address ≤ dmi.endAddress ∧
    first ≤ address ∧ address ≤ last

variable {cache} {dmi : Dmi} {address first last : BitVec 64} {len : BitVec 32}

theorem lookup_refuses_iff :
    (len = 0 ∨ BitVec.allOnes 64 - (len - 1).setWidth 64 < address) ↔
      len.toNat = 0 ∨ 2 ^ 64 < address.toNat + len.toNat := by
  have addressBound := address.isLt
  have lenBound := len.isLt
  rw [← BitVec.toNat_inj, BitVec.lt_def]
  rcases Nat.eq_zero_or_pos len.toNat with none | positive
  · exact iff_of_true (Or.inl none) (Or.inl none)
  · have extent : ((len - 1).setWidth 64 : BitVec 64).toNat = len.toNat - 1 := by
      have one : (1 : BitVec 32).toNat = 1 := rfl
      rw [BitVec.toNat_setWidth, BitVec.toNat_sub, one]
      omega
    have zero : (0 : BitVec 32).toNat = 0 := rfl
    rw [BitVec.toNat_sub, BitVec.toNat_allOnes, extent, zero]
    omega

theorem lookup_eq_some (found : cache.dmiCacheLookup address len = some dmi) :
    dmi ∈ cache ∧ Covers dmi address len ∧ 0 < len.toNat := by
  rw [dmiCacheLookup] at found
  split_ifs at found with refused
  rw [lookup_refuses_iff, not_or, Nat.not_lt] at refused
  cases below : cache.floor address.toNat with
  | none =>
      rw [below] at found
      cases found
  | some candidate =>
      simp only [below] at found
      split_ifs at found with inside
      cases found
      obtain ⟨member, -, -⟩ := OrderedMap.floor_eq_some_iff.mp below
      refine ⟨member, ?_, by omega⟩
      intro offset small
      obtain ⟨starts, ends⟩ := inside
      have addressBound := address.isLt
      have lenBound := len.isLt
      have one : (1 : BitVec 64).toNat = 1 := rfl
      rw [BitVec.le_def] at starts ends
      rw [BitVec.toNat_sub, BitVec.toNat_add, BitVec.toNat_setWidth, one] at ends
      omega

theorem lookup_first (member : dmi ∈ cache) (ordered : dmi.startAddress ≤ dmi.endAddress) :
    cache.dmiCacheLookup dmi.startAddress 1 = some dmi := by
  have found : cache.floor dmi.startAddress.toNat = some dmi :=
    OrderedMap.floor_eq_some_iff.mpr ⟨member, le_refl _, fun _ _ low => low⟩
  have accepted := (@lookup_refuses_iff dmi.startAddress 1).not.mpr (by
    have bound := dmi.startAddress.isLt
    have one : (1 : BitVec 32).toNat = 1 := rfl
    omega)
  have last : dmi.startAddress + (1 : BitVec 32).setWidth 64 - 1 = dmi.startAddress :=
    add_sub_cancel_right _ _
  simp only [dmiCacheLookup, if_neg accepted, found, last]
  exact if_pos ⟨BitVec.le_refl _, ordered⟩

theorem mem_requestDmiCache {answer : Option Dmi}
    (member : dmi ∈ cache.requestDmiCache len answer) :
    dmi ∈ cache ∨ grantOf len answer = some dmi := by
  rw [requestDmiCache] at member
  cases granted : grantOf len answer with
  | none =>
      rw [granted] at member
      exact Or.inl member
  | some grant =>
      rw [granted] at member
      have assigned : dmi ∈ cache.assign grant → dmi ∈ cache ∨ some grant = some dmi := by
        intro member
        rcases OrderedMap.mem_assign.mp member with rfl | ⟨old, -⟩
        · exact Or.inr rfl
        · exact Or.inl old
      cases found : cache.find grant.startAddress.toNat with
      | none =>
          simp only [found] at member
          exact assigned member
      | some old =>
          simp only [found] at member
          split_ifs at member
          · exact Or.inl member
          · exact assigned member

/-- The loop takes out what meets the range; it ends at a grant behind the range, and all later
ones are behind it too. -/
theorem mem_eraseLoop {entries : List Dmi}
    (sorted : entries.Pairwise fun first second : Dmi =>
      first.startAddress.toNat < second.startAddress.toNat) :
    dmi ∈ eraseLoop first last entries ↔
      dmi ∈ entries ∧ (last < dmi.startAddress ∨ dmi.endAddress < first) := by
  induction entries with
  | nil => simp [eraseLoop]
  | cons entry rest inductionHypothesis =>
      obtain ⟨least, restSorted⟩ := List.pairwise_cons.mp sorted
      have later := inductionHypothesis restSorted
      rw [eraseLoop]
      split_ifs with behind before
      · have allBehind : ∀ dmi ∈ entry :: rest, last < dmi.startAddress := by
          intro dmi member
          rcases List.mem_cons.mp member with rfl | member
          · exact behind
          · exact BitVec.lt_def.mpr ((BitVec.lt_def.mp behind).trans (least dmi member))
        exact ⟨fun member => ⟨member, Or.inl (allBehind dmi member)⟩, And.left⟩
      · rw [List.mem_cons, List.mem_cons, later]
        constructor
        · rintro (rfl | ⟨member, apart⟩)
          · exact ⟨Or.inl rfl, Or.inr before⟩
          · exact ⟨Or.inr member, apart⟩
        · rintro ⟨rfl | member, apart⟩
          · exact Or.inl rfl
          · exact Or.inr ⟨member, apart⟩
      · rw [List.mem_cons, later]
        constructor
        · rintro ⟨member, apart⟩
          exact ⟨Or.inr member, apart⟩
        · rintro ⟨rfl | member, apart⟩
          · exact absurd apart (not_or.mpr ⟨behind, before⟩)
          · exact ⟨member, apart⟩

/-- Grants survive if they do not meet the range, or start before another grant that starts at or
below the first address. -/
theorem mem_invalidateDirectMemPtr :
    dmi ∈ cache.invalidateDirectMemPtr first last ↔
      dmi ∈ cache ∧ (last < dmi.startAddress ∨ dmi.endAddress < first ∨
        ∃ other ∈ cache, other.startAddress ≤ first ∧ dmi.startAddress < other.startAddress) := by
  have whole := cache.entries_split first.toNat
  have sorted := cache.sorted
  rw [← whole, List.pairwise_append] at sorted
  have split : dmi ∈ cache ↔ dmi ∈ (cache.front first.toNat).dropLast ∨
      dmi ∈ (cache.floor first.toNat).toList ++ cache.back first.toNat := by
    rw [OrderedMap.mem_def, ← List.mem_append, whole]
  have early := @OrderedMap.mem_dropLast_front _ _ _ _ cache first.toNat dmi
  rw [invalidateDirectMemPtr, OrderedMap.mem_def, OrderedMap.restrict, List.mem_append,
    mem_eraseLoop sorted.2.1]
  constructor
  · rintro (member | ⟨member, apart⟩)
    · obtain ⟨inCache, other, otherMember, low, less⟩ := early.mp member
      exact ⟨inCache, Or.inr (Or.inr ⟨other, otherMember, low, less⟩)⟩
    · exact ⟨split.mpr (Or.inr member), or_assoc.mp (Or.inl apart)⟩
  · rintro ⟨inCache, apart⟩
    rcases or_assoc.mpr apart with apart | ⟨other, otherMember, low, less⟩
    · exact (split.mp inCache).imp_right fun member => ⟨member, apart⟩
    · exact Or.inl (early.mpr ⟨inCache, other, otherMember, low, less⟩)

/-! ### Histories -/

/-- What the bus has told the engine. -/
inductive DmiEvent
  | granted (dmi : Dmi)
  | invalidated (first last : BitVec 64)

/-- A grant has been made, and no invalidation since then meets it; the latest event comes
first. -/
def Fresh (dmi : Dmi) : List DmiEvent → Prop
  | [] => False
  | .granted grant :: older => grant = dmi ∨ Fresh dmi older
  | .invalidated first last :: older => ¬ Meets dmi first last ∧ Fresh dmi older

theorem Fresh.granted_after {newer older : List DmiEvent}
    (fresh : Fresh dmi (newer ++ .invalidated first last :: older))
    (meets : Meets dmi first last) : .granted dmi ∈ newer := by
  induction newer with
  | nil => exact absurd meets fresh.1
  | cons event newer inductionHypothesis =>
      cases event with
      | granted grant =>
          rcases fresh with rfl | fresh
          · exact List.mem_cons_self
          · exact List.mem_cons_of_mem _ (inductionHypothesis fresh)
      | invalidated _ _ => exact List.mem_cons_of_mem _ (inductionHypothesis fresh.2)

end DmiCache

/-- The cache, and beside it what the bus has told, the latest first. -/
structure DmiRun where
  cache : DmiCache := OrderedMap.empty
  history : List DmiCache.DmiEvent := []

inductive DmiStep
  | request (len : BitVec 32) (answer : Option Dmi)
  | invalidate (first last : BitVec 64)

namespace DmiRun

open DmiCache

def step (state : DmiRun) : DmiStep → Option DmiRun
  | .request len answer =>
      some {
        cache := state.cache.requestDmiCache len answer
        history := (grantOf len answer).elim state.history fun dmi =>
          .granted dmi :: state.history }
  | .invalidate first last =>
      some {
        cache := state.cache.invalidateDirectMemPtr first last
        history := .invalidated first last :: state.history }

/-- A lookup returns a grant that covers the access and that no invalidation has touched since it
was made; in a range that has been invalidated, a later grant covers the access. -/
structure Honours (state : DmiRun) : Prop where
  covers : ∀ address len dmi, state.cache.dmiCacheLookup address len = some dmi →
    Covers dmi address len
  fresh : ∀ address len dmi, state.cache.dmiCacheLookup address len = some dmi →
    Fresh dmi state.history
  regranted : ∀ address len dmi, state.cache.dmiCacheLookup address len = some dmi →
    ∀ newer first last older, state.history = newer ++ .invalidated first last :: older →
      (∃ offset < len.toNat, first.toNat ≤ address.toNat + offset ∧
        address.toNat + offset ≤ last.toNat) →
      ∃ grant, .granted grant ∈ newer ∧ Covers grant address len

/-- No cached grant that an invalidation meets starts before another one that starts at or below
the first address. -/
def Reaches (state : DmiRun) : DmiStep → Prop
  | .request _ _ => True
  | .invalidate first last =>
      ∀ dmi ∈ state.cache, Meets dmi first last → ∀ other ∈ state.cache,
        other.startAddress ≤ first → other.startAddress ≤ dmi.startAddress

/-- Every cached grant that covers anything is fresh. -/
def AllFresh (state : DmiRun) : Prop :=
  ∀ dmi ∈ state.cache, dmi.startAddress ≤ dmi.endAddress → Fresh dmi state.history

variable {state next : DmiRun}

theorem honours_iff : state.Honours ↔ state.AllFresh := by
  constructor
  · intro honours dmi member ordered
    exact honours.fresh _ _ dmi (lookup_first member ordered)
  · intro allFresh
    have fresh : ∀ address len dmi, state.cache.dmiCacheLookup address len = some dmi →
        Fresh dmi state.history := by
      intro address len dmi found
      obtain ⟨member, covers, positive⟩ := lookup_eq_some found
      obtain ⟨starts, ends⟩ := covers 0 positive
      exact allFresh dmi member (BitVec.le_def.mpr (starts.trans ends))
    refine ⟨fun address len dmi found => (lookup_eq_some found).2.1, fresh, ?_⟩
    rintro address len dmi found newer first last older split ⟨offset, small, low, high⟩
    obtain ⟨-, covers, -⟩ := lookup_eq_some found
    obtain ⟨starts, ends⟩ := covers offset small
    have bound := dmi.endAddress.isLt
    have place : (BitVec.ofNat 64 (address.toNat + offset)).toNat = address.toNat + offset := by
      rw [BitVec.toNat_ofNat, Nat.mod_eq_of_lt (by omega)]
    have meets : Meets dmi first last := by
      refine ⟨BitVec.ofNat 64 (address.toNat + offset), ?_⟩
      simp only [BitVec.le_def, place]
      exact ⟨starts, ends, low, high⟩
    have stillFresh := fresh address len dmi found
    rw [split] at stillFresh
    exact ⟨dmi, stillFresh.granted_after meets, covers⟩

/-- A grant that stays in the map keeps its place in the history, and one that comes into it has
just been made. -/
theorem request_allFresh {len : BitVec 32} {answer : Option Dmi} (allFresh : state.AllFresh)
    (stepped : state.step (.request len answer) = some next) : next.AllFresh := by
  cases stepped
  intro dmi member ordered
  rcases mem_requestDmiCache member with old | new
  · have before := allFresh dmi old ordered
    cases grantOf len answer with
    | none => exact before
    | some grant => exact Or.inr before
  · simp only [new, Option.elim]
    exact Or.inl rfl

theorem invalidate_allFresh_iff {first last : BitVec 64} (allFresh : state.AllFresh)
    (stepped : state.step (.invalidate first last) = some next) :
    next.AllFresh ↔ state.Reaches (.invalidate first last) := by
  cases stepped
  constructor
  · intro survivorsFresh dmi member meets other otherMember low
    by_contra hidden
    have survives : dmi ∈ state.cache.invalidateDirectMemPtr first last := by
      refine mem_invalidateDirectMemPtr.mpr ⟨member, Or.inr (Or.inr ⟨other, otherMember, low, ?_⟩)⟩
      exact BitVec.not_le.mp hidden
    have ordered : dmi.startAddress ≤ dmi.endAddress := by
      obtain ⟨address, starts, ends, -⟩ := meets
      exact BitVec.le_trans starts ends
    exact (survivorsFresh dmi survives ordered).1 meets
  · intro reaches dmi member ordered
    obtain ⟨inCache, survives⟩ := mem_invalidateDirectMemPtr.mp member
    refine ⟨?_, allFresh dmi inCache ordered⟩
    intro meets
    obtain ⟨address, starts, ends, low, high⟩ := meets
    rcases survives with behind | before | ⟨other, otherMember, otherLow, less⟩
    · exact absurd (BitVec.le_trans starts high) (BitVec.not_le.mpr behind)
    · exact absurd (BitVec.le_trans low ends) (BitVec.not_le.mpr before)
    · exact absurd (reaches dmi inCache ⟨address, starts, ends, low, high⟩ other otherMember
        otherLow) (BitVec.not_le.mpr less)

/-- Lookups honour all invalidations in every state of exactly the runs in which each
invalidation reaches the grants that it meets. -/
theorem dmi_cache_honours_iff (steps : List DmiStep) :
    Always step Honours {} steps ↔ Along step Reaches {} steps := by
  apply always_iff_along
  · intro state event next honours stepped
    rw [honours_iff] at honours ⊢
    cases event with
    | request len answer => exact iff_of_true (request_allFresh honours stepped) trivial
    | invalidate first last => exact invalidate_allFresh_iff honours stepped
  · apply honours_iff.mpr
    intro dmi member
    cases member

def wideGrant : Dmi := ⟨0x1000, 0, 100, true, true⟩

def narrowGrant : Dmi := ⟨0x2000, 10, 20, true, true⟩

/-- The wide grant starts before the narrow one, and survives the invalidation of its second half:
a lookup from address 5 to 54 still returns it. -/
theorem wide_grant_survives :
    ¬ Always step Honours {} [.request 1 (some wideGrant), .request 1 (some narrowGrant),
      .invalidate 50 60] := by
  intro always
  have honours := always_iff_prefix.mp always _ [] _ (List.append_nil _).symm rfl
  have found := honours.fresh 5 50 wideGrant (by decide)
  exact found.1 ⟨50, by decide, by decide, by decide, by decide⟩

end DmiRun

end QboxPlatform.Cc3xx
