import QboxPlatform.Cc3xx.HashTransfer

/-!
# Saving and restoring a hash context

The engine keeps the chaining value and the byte count twice: in the registers, and in a private
state beside the partial block.  Every operation of the engine and every register write keeps the
two copies equal, so the registers of one core carry a context of complete blocks into another.
-/

namespace QboxPlatform.Cc3xx

open Foundation

theorem Sha256Words.toList_injective {first second : Sha256Words}
    (same : first.toList = second.toList) : first = second := by
  cases first
  cases second
  simpa [toList] using same

theorem Sha256Words.toList_set (words : Sha256Words) {index : Nat} (inside : index < 8)
    (value : Word) : (words.set index value).toList = words.toList.set index value := by
  interval_cases index <;> rfl

/-- Data that does not complete the partial block leaves the chaining value. -/
theorem Sha256State.absorb_h (state : Sha256State) (data : List Byte)
    (short : state.block.length + data.length < 64) : (state.absorb data).h = state.h := by
  have notFull : ¬64 ≤ state.block.length := by omega
  have whole : data.take (64 - state.block.length) = data := List.take_of_length_le (by omega)
  have incomplete : (state.block ++ data).length ≠ 64 := by
    rw [List.length_append]
    omega
  rw [absorb]
  split_ifs with empty
  · rfl
  · simp only [whole, if_neg incomplete, List.drop_length]
    rw [absorb, if_pos rfl]

namespace Core

variable {Memory : Type}

/-- The registers that hold a context. -/
def contextRegisters : List Nat :=
  (List.range 8).map (fun index => hashH + index * 4) ++ [hashCurLen0, hashCurLen1]

/-- What software reads from them. -/
def savedContext (core : Core Memory) : List (Nat × Word) :=
  contextRegisters.map fun register => (register, ofBytes 32 (core.read register 4 false).1)

/-- Software writes words to registers, in the order of the list. -/
def writeWords (bus : Bus Memory) (core : Core Memory) (words : List (Nat × Word)) :
    Core Memory :=
  words.foldl (fun current entry => current.write32 bus entry.1 entry.2) core

/-- Software selects the engine for transfers without automatic padding. -/
def hashSelect (bus : Bus Memory) (core : Core Memory) : Core Memory :=
  (core.write32 bus cryptoCtl engineHash).write32 bus autoHwPadding 0

/-! ### The two copies -/

/-- The registers show the chaining value and the byte count of the private state. -/
structure Mirrored (core : Core Memory) : Prop where
  words : core.hashWords = core.sha256.h.toList
  length : core.hashCurrentLen = core.sha256.bytes

theorem storeAll_sha256 (core : Core Memory) (stores : List (Nat × BitVec 32)) :
    (core.storeAll stores).sha256 = core.sha256 := by
  rw [storeAll_eq]

@[simp]
theorem storeHashCurrentLen_sha256 (core : Core Memory) (value : BitVec 64) :
    (core.storeHashCurrentLen value).sha256 = core.sha256 :=
  storeAll_sha256 core _

@[simp]
theorem storeSha256H_sha256 (core : Core Memory) : core.storeSha256H.sha256 = core.sha256 :=
  storeAll_sha256 core _

theorem hashCurrentLen_storeSha256H (core : Core Memory) :
    core.storeSha256H.hashCurrentLen = core.hashCurrentLen := by
  apply hashCurrentLen_congr
  intro offset above _
  apply load32_storeAll_of_disjoint
  intro store member
  have inside := hashH_store member
  simp only [hashH, hashCurLen0] at inside above ⊢
  omega

namespace Mirrored

variable {core : Core Memory}

theorem storeAll (mirrored : Mirrored core) {stores : List (Nat × BitVec 32)}
    (apart : ∀ store ∈ stores, ¬ShowsHash store.1) : Mirrored (core.storeAll stores) where
  words := by
    rw [hashWords_storeAll core apart, storeAll_sha256]
    exact mirrored.words
  length := by
    rw [hashCurrentLen_storeAll core apart, storeAll_sha256]
    exact mirrored.length

theorem store32 (mirrored : Mirrored core) {offset : Nat} (value : BitVec 32)
    (apart : ¬ShowsHash offset) : Mirrored (core.store32 offset value) :=
  @storeAll _ _ mirrored [(offset, value)] (by simpa using apart)

/-- The chaining value may be stored again. -/
theorem storeSha256H {value : BitVec 64} (counted : core.hashCurrentLen = value)
    (bytes : core.sha256.bytes = value) : Mirrored core.storeSha256H where
  words := by rw [hashWords_storeSha256H, storeSha256H_sha256]
  length := by rw [hashCurrentLen_storeSha256H, storeSha256H_sha256, counted, bytes]

theorem sha256Reset (core : Core Memory) : Mirrored core.sha256Reset :=
  storeSha256H (hashCurrentLen_storeHashCurrentLen _ 0) (by simp [Sha256State.started])

theorem update (mirrored : Mirrored core) (data : List Byte) :
    Mirrored (core.sha256Update data) := by
  unfold sha256Update
  split_ifs with ignored filled
  · exact mirrored
  · apply storeSha256H (hashCurrentLen_storeHashCurrentLen _ _)
    rw [storeHashCurrentLen_sha256]
  · have unchanged : (core.sha256.update data).h = core.sha256.h := by
      rw [Sha256State.update, if_neg ignored]
      exact Sha256State.absorb_h _ _ (by dsimp only; omega)
    refine ⟨?_, ?_⟩
    · rw [hashWords_storeHashCurrentLen, storeHashCurrentLen_sha256]
      dsimp only
      rw [unchanged]
      exact mirrored.words
    · rw [hashCurrentLen_storeHashCurrentLen, storeHashCurrentLen_sha256]

end Mirrored

theorem mirrored_hashStart (bus : Bus Memory) (core : Core Memory) :
    Mirrored (core.hashStart bus) := by
  rw [hashStart, write32_hashControl]
  exact Mirrored.sha256Reset _

theorem Mirrored.transfer {bus : Bus Memory} {content : Memory → BitVec 64 → Byte}
    (readable : bus.Readable content) {core : Core Memory} {message : List Byte}
    (mirrored : Mirrored core) (hashing : Hashing core false message)
    (transfer : HashTransfer Memory) : Mirrored (core.hashTransfer bus transfer) := by
  obtain ⟨extended, input⟩ := hashDmaInput_programmed readable hashing transfer
  rw [if_neg Bool.false_ne_true] at input
  have programmed : Mirrored (core.programmed transfer) := by
    have placed : Mirrored { core with memory := transfer.memory } :=
      ⟨mirrored.words, mirrored.length⟩
    exact (placed.store32 transfer.source (by unfold ShowsHash; decide)).store32 transfer.length
      (by unfold ShowsHash; decide)
  have fed : Mirrored (core.fedBy bus transfer) :=
    (@dmaInput_extends _ _ _ readable _ (fun core _ => Mirrored core)
      (fun _ _ data mirrored => mirrored.update data) sha256Update_memory _ message programmed
      (transfer.source.setWidth 64) transfer.length.toNat _ List.length_replicate).2
  have selected : ((core.programmed transfer).hashDmaInput bus dinSrcLliWord1).engine =
      engineHash := by
    rw [input]
    exact extended.selected
  obtain ⟨stores, above, complete⟩ := completeDmaTransfer_of_hash bus dinSrcLliWord1 selected
  rw [hashTransfer_eq, complete, input]
  apply fed.storeAll
  intro store member shown
  have apart := above store member
  simp only [ShowsHash, hashH, hashCurLen0, hashCurLen1, hostRgfIrr] at shown apart
  omega

theorem Mirrored.transfers {bus : Bus Memory} {content : Memory → BitVec 64 → Byte}
    (readable : bus.Readable content) {core : Core Memory} {message : List Byte}
    (mirrored : Mirrored core) (hashing : Hashing core false message)
    (transfers : List (HashTransfer Memory)) :
    Mirrored (transfers.foldl (hashTransfer bus) core) := by
  induction transfers generalizing core message with
  | nil => exact mirrored
  | cons transfer rest inductionHypothesis =>
      exact inductionHypothesis (mirrored.transfer readable hashing transfer)
        (hashing.transfer readable transfer)

/-! ### Register writes -/

/-- The engine accepts a context: nothing is pending in the partial block. -/
structure Restorable (core : Core Memory) : Prop extends Mirrored core where
  active : core.sha256.active = true
  unfinished : core.sha256.finalized = false
  empty : core.sha256.block = []

theorem hashWords_store32 (core : Core Memory) (index : Nat) (value : BitVec 32) :
    (core.store32 (hashH + index * 4) value).hashWords = core.hashWords.set index value := by
  apply List.ext_getElem (by simp [hashWords])
  intro position below _
  have eight : position < 8 := by simpa [hashWords] using below
  rw [List.getElem_set]
  split_ifs with same
  · subst same
    simp [hashWords, Core.load32, Core.store32, Image.load32_store32]
  · simp only [hashWords, List.getElem_map, List.getElem_range]
    apply load32_store32_of_disjoint
    omega

theorem write32_hashH (bus : Bus Memory) {core : Core Memory} (restorable : Restorable core)
    {index : Nat} (inside : index < 8) (value : BitVec 32) :
    core.write32 bus (hashH + index * 4) value =
      { core.store32 (hashH + index * 4) value with
        sha256 := { core.sha256 with h := core.sha256.h.set index value } } := by
  have routed : core.write32 bus (hashH + index * 4) value =
      core.updateHashAfterWrite (hashH + index * 4) value := by
    interval_cases index <;> rfl
  have register : inHashH (hashH + index * 4) = true := by
    simp only [inHashH, Bool.and_eq_true, decide_eq_true_eq]
    omega
  have accepts : ((core.store32 (hashH + index * 4) value).sha256.active &&
      !(core.store32 (hashH + index * 4) value).sha256.finalized) = true := by
    simp [Core.store32, restorable.active, restorable.unfinished]
  have position : (hashH + index * 4 - hashH) / 4 = index := by omega
  rw [routed, updateHashAfterWrite, if_pos register]
  dsimp only
  rw [if_pos accepts, position]
  rfl

theorem write32_hashCurLen (bus : Bus Memory) {core : Core Memory} (restorable : Restorable core)
    {register : Nat} (length : register = hashCurLen0 ∨ register = hashCurLen1)
    (value : BitVec 32) :
    core.write32 bus register value =
      { core.store32 register value with
        sha256 :=
          { core.sha256 with
            bytes := (core.store32 register value).hashCurrentLen
            block := [] } } := by
  have accepts : ((core.store32 register value).sha256.active &&
      !(core.store32 register value).sha256.finalized) = true := by
    simp [Core.store32, restorable.active, restorable.unfinished]
  have routed : core.write32 bus register value = core.updateHashAfterWrite register value := by
    obtain rfl | rfl := length <;> rfl
  have outside : inHashH register = false := by
    obtain rfl | rfl := length <;> decide
  rw [routed, updateHashAfterWrite, outside, if_neg Bool.false_ne_true, if_pos length]
  dsimp only
  rw [if_pos accepts]
  rfl

theorem mem_contextRegisters {register : Nat} (member : register ∈ contextRegisters) :
    (∃ index < 8, register = hashH + index * 4) ∨
      register = hashCurLen0 ∨ register = hashCurLen1 := by
  rcases List.mem_append.mp member with word | length
  · obtain ⟨index, listed, rfl⟩ := List.mem_map.mp word
    exact .inl ⟨index, List.mem_range.mp listed, rfl⟩
  · exact .inr (by simpa using length)

/-- A write changes one register and the private copy of it. -/
theorem Restorable.write (bus : Bus Memory) {core : Core Memory} (restorable : Restorable core)
    {register : Nat} (member : register ∈ contextRegisters) (value : BitVec 32) :
    Restorable (core.write32 bus register value) ∧
      (core.write32 bus register value).regs = (core.store32 register value).regs ∧
      (core.write32 bus register value).engine = core.engine := by
  rcases mem_contextRegisters member with ⟨index, inside, rfl⟩ | length
  · rw [write32_hashH bus restorable inside]
    refine ⟨⟨⟨?_, ?_⟩, restorable.active, restorable.unfinished, restorable.empty⟩, rfl, rfl⟩
    · dsimp only
      rw [Sha256Words.toList_set _ inside, ← restorable.words, ← hashWords_store32 core index]
      rfl
    · refine Eq.trans (hashCurrentLen_congr fun offset above _ => ?_) restorable.length
      apply load32_store32_of_disjoint
      simp only [hashH, hashCurLen0] at above ⊢
      omega
  · rw [write32_hashCurLen bus restorable length]
    refine ⟨⟨⟨?_, rfl⟩, restorable.active, restorable.unfinished, rfl⟩, rfl, rfl⟩
    refine Eq.trans (hashWords_congr fun offset _ below => ?_) restorable.words
    apply load32_store32_of_disjoint
    simp only [hashH, hashCurLen0, hashCurLen1] at below length ⊢
    omega

theorem contextRegisters_apart :
    ∀ register ∈ contextRegisters, ∀ other ∈ autoHwPadding :: contextRegisters,
      other ≠ register → other + 4 ≤ register ∨ register + 4 ≤ other := by
  decide

/-- After writes to distinct registers, in any order, each has the word written to it. -/
theorem Restorable.writeWords (bus : Bus Memory) {core : Core Memory}
    (restorable : Restorable core) {words : List (Nat × Word)}
    (members : ∀ entry ∈ words, entry.1 ∈ contextRegisters)
    (distinct : (words.map Prod.fst).Nodup) :
    Restorable (core.writeWords bus words) ∧
      (core.writeWords bus words).engine = core.engine ∧
      (∀ entry ∈ words, (core.writeWords bus words).load32 entry.1 = entry.2) ∧
      ∀ other ∈ autoHwPadding :: contextRegisters, other ∉ words.map Prod.fst →
        (core.writeWords bus words).load32 other = core.load32 other := by
  induction words generalizing core with
  | nil => exact ⟨restorable, rfl, by simp, fun _ _ _ => rfl⟩
  | cons entry rest inductionHypothesis =>
      rw [List.map_cons, List.nodup_cons] at distinct
      have member := members entry List.mem_cons_self
      obtain ⟨written, regs, engine⟩ := restorable.write bus member entry.2
      obtain ⟨restored, engineKept, shown, others⟩ := inductionHypothesis written
        (fun other listed => members other (List.mem_cons_of_mem _ listed)) distinct.2
      have loaded (offset : Nat) : (core.write32 bus entry.1 entry.2).load32 offset =
          (core.store32 entry.1 entry.2).load32 offset := by
        rw [Core.load32, regs, Core.load32]
      refine ⟨restored, engineKept.trans engine, ?_, ?_⟩
      · intro other listed
        rcases List.mem_cons.mp listed with rfl | later
        · refine (others other.1 (List.mem_cons_of_mem _ member) distinct.1).trans ?_
          rw [loaded]
          exact Image.load32_store32 _ _ _
        · exact shown other later
      · intro other listed absent
        rw [List.map_cons, List.mem_cons, not_or] at absent
        refine (others other listed absent.2).trans ?_
        rw [loaded]
        exact core.load32_store32_of_disjoint entry.2
          (contextRegisters_apart entry.1 member other listed absent.1)

/-! ### A context in another core -/

theorem read_contextRegisters (core : Core Memory) {register : Nat}
    (member : register ∈ contextRegisters) :
    core.read register 4 false = (core.regs.read register 4, core) := by
  have plain : ∀ register ∈ contextRegisters, register ≠ pkaSramRdata ∧
      ¬(ehrData ≤ register ∧ register < ehrData + 24) := by decide
  obtain ⟨notData, notEntropy⟩ := plain register member
  unfold read
  rw [if_neg fun taken => notData taken.2.2]
  dsimp only
  rw [if_neg fun taken => notEntropy taken.2]

theorem savedContext_eq (core : Core Memory) :
    core.savedContext = contextRegisters.map fun register => (register, core.load32 register) := by
  apply List.map_congr_left
  intro register member
  rw [read_contextRegisters core member]
  rfl

theorem restorable_sha256Reset (core : Core Memory) : Restorable core.sha256Reset where
  toMirrored := Mirrored.sha256Reset core
  active := by simp [sha256Reset, Sha256State.started]
  unfinished := by simp [sha256Reset, Sha256State.started]
  empty := by simp [sha256Reset, Sha256State.started]

/-- A core whose context registers agree with those of a core that holds complete blocks holds
the same message. -/
theorem Restorable.streams {first second : Core Memory} {message : List Byte}
    (restorable : Restorable second) (mirrored : Mirrored first)
    (streams : first.sha256.Streams message) (complete : 64 ∣ message.length)
    (same : ∀ register ∈ contextRegisters, second.load32 register = first.load32 register) :
    second.sha256.Streams message := by
  have words : second.sha256.h = first.sha256.h := by
    apply Sha256Words.toList_injective
    rw [← restorable.words, ← mirrored.words]
    apply List.map_congr_left
    intro index listed
    exact same _ (List.mem_append_left _ (List.mem_map_of_mem listed))
  have bytes : second.sha256.bytes = first.sha256.bytes := by
    rw [← restorable.length, ← mirrored.length, hashCurrentLen, hashCurrentLen,
      same hashCurLen0 (by decide), same hashCurLen1 (by decide)]
  have block : first.sha256.block = [] := by
    apply List.eq_nil_of_length_eq_zero
    rw [streams.holds.length_block, Nat.mod_eq_zero_of_dvd complete]
  refine ⟨restorable.active, restorable.unfinished, ?_⟩
  rw [words, bytes, restorable.empty, ← block]
  exact streams.holds

theorem hashing_hashSelect (bus : Bus Memory) {core : Core Memory} {message : List Byte}
    (streams : core.sha256.Streams message) : Hashing (core.hashSelect bus) false message := by
  have selected : (core.cryptoCtlWrite engineHash).engine = engineHash := by
    rw [cryptoCtlWrite, storeAll_engine]
    rfl
  have kept : (core.cryptoCtlWrite engineHash).sha256 = core.sha256 := by
    rw [cryptoCtlWrite, storeAll_sha256]
    rfl
  rw [hashSelect, write32_cryptoCtl, write32_autoHwPadding]
  refine ⟨selected, ?_, ?_⟩
  · change (core.cryptoCtlWrite engineHash).sha256.Streams message
    rw [kept]
    exact streams
  · rw [Core.load32, Core.store32, Image.load32_store32]
    rfl

/-- However the rest of a message is cut into transfers, and however its padding is asked for,
the registers end with the hash of the message. -/
structure HashesRest (bus : Bus Memory) (content : Memory → BitVec 64 → Byte)
    (core : Core Memory) (message rest : List Byte) : Prop where
  explicit : ∀ transfers : List (HashTransfer Memory),
    transfers.flatMap (HashTransfer.data content) = rest →
      Hashed ((transfers.foldl (hashTransfer bus) core).write32 bus hashPadCfg 4) message
  automatic : ∀ (front : List (HashTransfer Memory)) (last : HashTransfer Memory),
    (front ++ [last]).flatMap (HashTransfer.data content) = rest →
      Hashed (((front.foldl (hashTransfer bus) core).write32 bus autoHwPadding 1).hashTransfer bus
        last) message

theorem Hashing.hashesRest {bus : Bus Memory} {content : Memory → BitVec 64 → Byte}
    (readable : bus.Readable content) {core : Core Memory} {message : List Byte}
    (hashing : Hashing core false message) (rest : List Byte) :
    HashesRest bus content core (message ++ rest) rest where
  explicit transfers covered := by
    rw [← covered]
    exact (hashing.transfers readable transfers).pad
  automatic front last covered := by
    rw [← covered, List.flatMap_append, List.flatMap_singleton, ← List.append_assoc]
    exact (hashing.transfers readable front).requestPadding.lastTransfer readable last

/-- The context of complete blocks carries a hash from one core into another, in whatever state
that core was and in whatever order the registers are written.  The engine may be selected
before the hash is started or after the registers are restored. -/
theorem restored_sha256 {bus : Bus Memory} {content : Memory → BitVec 64 → Byte}
    (readable : bus.Readable content) (first second : Core Memory)
    (transfers : List (HashTransfer Memory)) {message rest : List Byte}
    (covered : transfers.flatMap (HashTransfer.data content) = message)
    (complete : 64 ∣ message.length) {words : List (Nat × Word)}
    (saved : words.Perm (transfers.foldl (hashTransfer bus) (first.hashStart bus)).savedContext) :
    HashesRest bus content ((second.hashStart bus).writeWords bus words) (message ++ rest) rest ∧
      HashesRest bus content
        (((second.write32 bus hashControl hashAlgSha256).writeWords bus words).hashSelect bus)
        (message ++ rest) rest := by
  have fed := (hashing_hashStart bus first).transfers readable transfers
  have mirrored := (mirrored_hashStart bus first).transfers readable
    (hashing_hashStart bus first) transfers
  rw [List.nil_append, covered] at fed
  rw [savedContext_eq] at saved
  have members : ∀ entry ∈ words, entry.1 ∈ contextRegisters := by
    intro entry listed
    obtain ⟨register, member, rfl⟩ := List.mem_map.mp (saved.mem_iff.mp listed)
    exact member
  have registers : (words.map Prod.fst).Perm contextRegisters := by
    refine (saved.map Prod.fst).trans ?_
    rw [List.map_map]
    exact List.Perm.of_eq (List.map_id _)
  have distinct : (words.map Prod.fst).Nodup := registers.nodup_iff.mpr (by decide)
  -- Whatever core the words are written to, it then holds the saved message.
  have carried {core : Core Memory} (restorable : Restorable core) :
      (core.writeWords bus words).sha256.Streams message := by
    obtain ⟨restored, -, shown, -⟩ := restorable.writeWords bus members distinct
    refine restored.streams mirrored fed.streams complete fun register member => ?_
    exact shown (register, _) (saved.mem_iff.mpr (List.mem_map_of_mem member))
  constructor
  · have started := hashing_hashStart bus second
    have restorable : Restorable (second.hashStart bus) := by
      rw [hashStart, write32_hashControl]
      exact restorable_sha256Reset _
    obtain ⟨-, engine, -, others⟩ := restorable.writeWords bus members distinct
    have padding := others autoHwPadding List.mem_cons_self fun listed =>
      absurd (registers.mem_iff.mp listed) (by decide)
    refine Hashing.hashesRest readable ⟨engine.trans started.selected, carried restorable, ?_⟩ rest
    rw [padding]
    exact started.padding
  · have restorable : Restorable (second.write32 bus hashControl hashAlgSha256) := by
      rw [write32_hashControl]
      exact restorable_sha256Reset _
    exact (hashing_hashSelect bus (carried restorable)).hashesRest readable rest

/-- One block of data, and the registers written in the opposite order. -/
theorem restored_sha256_reversed :
    let core : Core (BitVec 64 → Byte) := reset fun _ => 0
    let words := ([⟨fun _ => 0x61, 0, 64⟩].foldl (hashTransfer Bus.ram)
      (core.hashStart Bus.ram)).savedContext.reverse
    HashesRest Bus.ram (fun memory => memory)
        ((core.hashStart Bus.ram).writeWords Bus.ram words)
        (List.replicate 64 0x61 ++ [0x62]) [0x62] ∧
      HashesRest Bus.ram (fun memory => memory)
        (((core.write32 Bus.ram hashControl hashAlgSha256).writeWords Bus.ram words).hashSelect
          Bus.ram) (List.replicate 64 0x61 ++ [0x62]) [0x62] :=
  restored_sha256 Bus.ram_writable.toReadable _ _ _ (by decide) (by decide)
    (List.reverse_perm _)

end Core

end QboxPlatform.Cc3xx
