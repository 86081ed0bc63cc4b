import QboxPlatform.Foundation.Run
import QboxPlatform.HostGtimer.Gtimer

/-!
# Reading the count of the generic timer

Several readers access the timer in any order.  As long as the counter does not wrap it only goes
up, so a reader that finds the high word unchanged around a read of the low word has the two words
of one value.
-/

namespace QboxPlatform.HostGtimer

open Foundation

universe u

/-- An access of one of the readers. -/
structure Call (Reader : Type u) where
  reader : Reader
  access : Access

variable {Reader : Type u} {params : Params}

def step (params : Params) (gtimer : Gtimer) (call : Call Reader) : Option Gtimer :=
  (gtimer.access params call.access).map Prod.snd

/-- The call does not advance the counter past its largest value. -/
def Unwrapped (params : Params) (gtimer : Gtimer) (call : Call Reader) : Prop :=
  call.access = readPctl → gtimer.counter.toNat + params.counterIncrement.toNat < 2 ^ 64

instance (gtimer : Gtimer) (call : Call Reader) : Decidable (Unwrapped params gtimer call) :=
  inferInstanceAs (Decidable (_ → _))

/-- The call at a position of a run: what it returns, and the timer that it leaves. -/
def Replies (params : Params) (start : Gtimer) (calls : List (Call Reader)) (position : Nat)
    (call : Call Reader) (response : Response) (after : Gtimer) : Prop :=
  ∃ before, Happens (step params) start calls position call before after ∧
    before.access params call.access = some (response, after)

/-! ### The counter goes up -/

variable {gtimer next final : Gtimer} {call : Call Reader} {calls : List (Call Reader)}

theorem counter_advance
    (unwrapped : gtimer.counter.toNat + params.counterIncrement.toNat < 2 ^ 64) :
    (gtimer.counter + params.counterIncrement).toNat =
      gtimer.counter.toNat + params.counterIncrement.toNat := by
  rw [BitVec.toNat_add, Nat.mod_eq_of_lt unwrapped]

theorem counter_step (counting : params.counterBase = true)
    (unwrapped : Unwrapped params gtimer call) (stepped : step params gtimer call = some next) :
    gtimer.counter.toNat ≤ next.counter.toNat := by
  obtain ⟨⟨response, served⟩, accessed, rfl⟩ := Option.map_eq_some_iff.mp stepped
  by_cases low : call.access = readPctl
  · rw [low, Gtimer.access_readPctl counting] at accessed
    cases accessed
    rw [counter_advance (unwrapped low)]
    exact Nat.le_add_right _ _
  · rw [Gtimer.access_counter low accessed]

theorem counter_run (counting : params.counterBase = true)
    (unwrapped : Along (step params) (Unwrapped params) gtimer calls)
    (reached : run (step params) gtimer calls = some final) :
    gtimer.counter.toNat ≤ final.counter.toNat := by
  have keeps : ∀ (state : Gtimer) (call : Call Reader) (after : Gtimer),
      gtimer.counter.toNat ≤ state.counter.toNat → Unwrapped params state call →
        step params state call = some after → gtimer.counter.toNat ≤ after.counter.toNat := by
    intro state call after below condition stepped
    exact below.trans (counter_step counting condition stepped)
  exact run_invariant_along keeps le_rfl unwrapped reached

/-! ### The words of the count -/

variable {start first second counted : Gtimer} {earlier later position : Nat}
  {call call' : Call Reader} {response response' : Response} {low high : List Byte}

theorem Replies.counter_le (counting : params.counterBase = true)
    (unwrapped : Along (step params) (Unwrapped params) start calls) (order : earlier < later)
    (replies : Replies params start calls earlier call response first)
    (follows : Replies params start calls later call' response' second) :
    first.counter.toNat ≤ second.counter.toNat := by
  obtain ⟨before, happens, -⟩ := replies
  obtain ⟨before', happens', -⟩ := follows
  obtain ⟨middle, reached, along⟩ := happens.between happens' order unwrapped
  exact (counter_run counting along reached).trans
    (counter_step counting (happens'.condition unwrapped) happens'.stepped)

theorem Replies.high_eq (counting : params.counterBase = true) (reads : call.access = readPcth)
    (replies : Replies params start calls position call (.ok high) counted) :
    high = toBytes 4 ((counted.counter >>> 32).setWidth 32) := by
  obtain ⟨before, -, accessed⟩ := replies
  rw [reads, Gtimer.access_readPcth counting] at accessed
  cases accessed
  rfl

theorem Replies.low_eq (counting : params.counterBase = true) (reads : call.access = readPctl)
    (replies : Replies params start calls position call (.ok low) counted) :
    low = toBytes 4 (counted.counter.setWidth 32) := by
  obtain ⟨before, -, accessed⟩ := replies
  rw [reads, Gtimer.access_readPctl counting] at accessed
  cases accessed
  rfl

theorem Replies.counter_lt (counting : params.counterBase = true)
    (unwrapped : Along (step params) (Unwrapped params) start calls)
    (increments : params.counterIncrement ≠ 0) (order : earlier < later)
    (reads : call'.access = readPctl)
    (replies : Replies params start calls earlier call response first)
    (follows : Replies params start calls later call' response' second) :
    first.counter.toNat < second.counter.toNat := by
  obtain ⟨before, happens, -⟩ := replies
  obtain ⟨before', happens', accessed⟩ := follows
  obtain ⟨middle, reached, along⟩ := happens.between happens' order unwrapped
  have advances : second.counter.toNat = before'.counter.toNat + params.counterIncrement.toNat := by
    rw [reads, Gtimer.access_readPctl counting] at accessed
    cases accessed
    exact counter_advance (happens'.condition unwrapped reads)
  have positive : 0 < params.counterIncrement.toNat :=
    Nat.pos_of_ne_zero fun zero => increments (BitVec.eq_of_toNat_eq zero)
  have below := counter_run counting along reached
  omega

theorem ofBytes_words (counter : BitVec 64) :
    ofBytes 64 (toBytes 4 (counter.setWidth 32) ++
      toBytes 4 ((counter >>> 32).setWidth 32)) = counter := by
  have parts : toBytes 4 (counter.setWidth 32) ++ toBytes 4 ((counter >>> 32).setWidth 32) =
      toBytes 8 counter := by
    apply List.ext_getElem (by simp)
    intro index inside _
    rw [List.getElem_append]
    have bound : index < 8 := by simpa using inside
    split_ifs with low
    · have below : index < 4 := by simpa using low
      simp only [toBytes, List.getElem_map, List.getElem_range]
      apply BitVec.eq_of_getLsbD_eq
      intro bit small
      have inWord : 8 * index + bit < 32 := by omega
      simp [getLsbD_byteOf, inWord]
    · have above : 4 ≤ index := by simpa using low
      simp only [toBytes, List.getElem_map, List.getElem_range, List.length_map, List.length_range]
      apply BitVec.eq_of_getLsbD_eq
      intro bit small
      have inWord : 8 * (index - 4) + bit < 32 := by omega
      have place : 32 + (8 * (index - 4) + bit) = 8 * index + bit := by omega
      simp [getLsbD_byteOf, inWord, place]
  rw [parts, ofBytes_toBytes counter (by omega)]

theorem toNat_high (counter : BitVec 64) :
    ((counter >>> 32).setWidth 32).toNat = counter.toNat / 2 ^ 32 := by
  have bound := counter.isLt
  rw [BitVec.toNat_setWidth, BitVec.toNat_ushiftRight, Nat.shiftRight_eq_div_pow]
  exact Nat.mod_eq_of_lt (by omega)

theorem ofBytes_count (counting : params.counterBase = true)
    (unwrapped : Along (step params) (Unwrapped params) start calls) {reader : Reader}
    {middle : Nat} (order : earlier < middle) (order' : middle < later)
    (before : Replies params start calls earlier ⟨reader, readPcth⟩ (.ok high) first)
    (reads : Replies params start calls middle ⟨reader, readPctl⟩ (.ok low) counted)
    (after : Replies params start calls later ⟨reader, readPcth⟩ (.ok high) second) :
    ofBytes 64 (low ++ high) = counted.counter := by
  have lower := before.counter_le counting unwrapped order reads
  have upper := reads.counter_le counting unwrapped order' after
  have same : (first.counter >>> 32).setWidth 32 = (second.counter >>> 32).setWidth 32 := by
    apply @toBytes_injective 32 4 (by omega)
    rw [← before.high_eq counting rfl, ← after.high_eq counting rfl]
  have sameHigh := congrArg BitVec.toNat same
  rw [toNat_high, toNat_high] at sameHigh
  have between : (first.counter >>> 32).setWidth 32 = (counted.counter >>> 32).setWidth 32 := by
    apply BitVec.eq_of_toNat_eq
    rw [toNat_high, toNat_high]
    omega
  rw [before.high_eq counting rfl, reads.low_eq counting rfl, between, ofBytes_words]

/-- However the accesses of the readers are ordered: a reader that sees the same high word before
and after it reads the low word has the value that its read of the low word produced, and the
values produced by reads of the low word go up. -/
theorem count_consistent (counting : params.counterBase = true) (start : Gtimer)
    (calls : List (Call Reader))
    (unwrapped : Along (step params) (Unwrapped params) start calls) :
    (∀ (reader : Reader) (earlier middle later : Nat) (high low high' : List Byte)
      (first counted second : Gtimer), earlier < middle → middle < later →
      Replies params start calls earlier ⟨reader, readPcth⟩ (.ok high) first →
      Replies params start calls middle ⟨reader, readPctl⟩ (.ok low) counted →
      Replies params start calls later ⟨reader, readPcth⟩ (.ok high') second →
      high = high' → ofBytes 64 (low ++ high) = counted.counter) ∧
    (∀ (reader reader' : Reader) (earlier later : Nat) (response response' : Response)
      (first second : Gtimer), earlier < later →
      Replies params start calls earlier ⟨reader, readPctl⟩ response first →
      Replies params start calls later ⟨reader', readPctl⟩ response' second →
      first.counter.toNat ≤ second.counter.toNat ∧
        (params.counterIncrement ≠ 0 → first.counter.toNat < second.counter.toNat)) := by
  constructor
  · rintro reader earlier middle later high low _ first counted second order order' before reads
      after rfl
    exact ofBytes_count counting unwrapped order order' before reads after
  · intro reader reader' earlier later response response' first second order replies follows
    exact ⟨replies.counter_le counting unwrapped order follows, fun increments =>
      replies.counter_lt counting unwrapped increments order rfl follows⟩

theorem exists_replies (event : calls[position]? = some call)
    (replied : ((run (step params) start (calls.take position)).bind fun before =>
      (before.access params call.access).map Prod.fst) = some response) :
    ∃ after, Replies params start calls position call response after := by
  obtain ⟨before, reached, accessed⟩ := Option.bind_eq_some_iff.mp replied
  obtain ⟨⟨_, after⟩, served, rfl⟩ := Option.map_eq_some_iff.mp accessed
  exact ⟨after, before, ⟨reached, event, by rw [step, served]; rfl⟩, served⟩

def countingParams : Params := { counterBase := true }

def countingStart : Gtimer := .resetRegisters countingParams

/-- Two readers, and a write between their reads. -/
def interleavedCalls : List (Call Bool) :=
  [⟨true, readPcth⟩, ⟨false, readPctl⟩, ⟨true, readPctl⟩, ⟨false, .write 0 [1, 2, 3, 4]⟩,
    ⟨true, readPcth⟩]

/-- The words that the first reader has are those of its own read, which comes after the other. -/
theorem count_consistent_sample :
    ∃ first others reads last : Gtimer,
      Replies countingParams countingStart interleavedCalls 0 ⟨true, readPcth⟩
        (.ok [0, 0, 0, 0]) first ∧
      Replies countingParams countingStart interleavedCalls 1 ⟨false, readPctl⟩
        (.ok [0x00, 0x10, 0, 0]) others ∧
      Replies countingParams countingStart interleavedCalls 2 ⟨true, readPctl⟩
        (.ok [0x00, 0x20, 0, 0]) reads ∧
      Replies countingParams countingStart interleavedCalls 4 ⟨true, readPcth⟩
        (.ok [0, 0, 0, 0]) last ∧
      ofBytes 64 ([0x00, 0x20, 0, 0] ++ [0, 0, 0, 0]) = reads.counter ∧
      others.counter.toNat < reads.counter.toNat := by
  have consistent := @count_consistent Bool countingParams rfl countingStart interleavedCalls
    (by decide +kernel)
  obtain ⟨first, before⟩ : ∃ after, Replies countingParams countingStart interleavedCalls 0
      ⟨true, readPcth⟩ (.ok [0, 0, 0, 0]) after :=
    exists_replies rfl (by decide +kernel)
  obtain ⟨others, earlier⟩ : ∃ after, Replies countingParams countingStart interleavedCalls 1
      ⟨false, readPctl⟩ (.ok [0x00, 0x10, 0, 0]) after :=
    exists_replies rfl (by decide +kernel)
  obtain ⟨reads, counted⟩ : ∃ after, Replies countingParams countingStart interleavedCalls 2
      ⟨true, readPctl⟩ (.ok [0x00, 0x20, 0, 0]) after :=
    exists_replies rfl (by decide +kernel)
  obtain ⟨last, after⟩ : ∃ after, Replies countingParams countingStart interleavedCalls 4
      ⟨true, readPcth⟩ (.ok [0, 0, 0, 0]) after :=
    exists_replies rfl (by decide +kernel)
  refine ⟨first, others, reads, last, before, earlier, counted, after, ?_, ?_⟩
  · exact consistent.1 true 0 2 4 _ _ _ _ _ _ (by decide) (by decide) before counted after rfl
  · exact (consistent.2 false true 1 2 _ _ _ _ (by decide) earlier counted).2 (by decide)

end QboxPlatform.HostGtimer
