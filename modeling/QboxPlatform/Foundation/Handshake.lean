import QboxPlatform.Foundation.Bytes
import QboxPlatform.Foundation.Run

/-!
# Messages through doorbell registers

Two parties share a row of registers.  The sender can only set bits in them, the receiver
can only clear bits.  A message is written as its length and its words and announced in the
last register, and the receiver clears that register last of all.  Whatever the order of
the single accesses, the received messages are a prefix of the sent ones.
-/

namespace Foundation

universe u v

/-- A row of doorbell registers as both parties access it.  `status` is what the valid
states mean; the laws say that every access reads or updates exactly that. -/
structure Doorbells (State : Type u) (Access : Type v) where
  /-- The register that announces a message. -/
  last : Nat
  enough : 2 ≤ last
  bounded : last < 2 ^ 30
  /-- The value written there. -/
  notifyValue : BitVec 32
  notifies : notifyValue ≠ 0
  Valid : State → Prop
  status : State → Nat → BitVec 32
  readSender : State → Nat → Option (BitVec 32)
  readReceiver : State → Nat → Option (BitVec 32)
  set : State → Nat → BitVec 32 → Option State
  clear : State → Nat → BitVec 32 → Option State
  /-- Accesses that are no part of the protocol. -/
  other : State → Access → Option State
  readSender_eq : ∀ {state register}, Valid state → register ≤ last →
    readSender state register = some (status state register)
  readReceiver_eq : ∀ {state register}, Valid state → register ≤ last →
    readReceiver state register = some (status state register)
  set_eq : ∀ {state register} bits, Valid state → register ≤ last →
    ∃ next, set state register bits = some next ∧ Valid next ∧ ∀ index ≤ last,
      status next index =
        if index = register then status state register ||| bits else status state index
  clear_eq : ∀ {state register} bits, Valid state → register ≤ last →
    ∃ next, clear state register bits = some next ∧ Valid next ∧ ∀ index ≤ last,
      status next index =
        if index = register then status state register &&& ~~~bits else status state index
  other_eq : ∀ {state access next}, Valid state → other state access = some next →
    Valid next ∧ ∀ index ≤ last, status next index = status state index

/-- Where the sender stands: between messages, or before the write at a position. -/
inductive Sender
  | idle
  | sending (message : List Byte) (position : Nat)
  deriving DecidableEq

/-- Where the receiver stands: between messages, having seen an announcement, having read
the length and some words, or having registers left to clear. -/
inductive Receiver
  | idle
  | announced
  | reading (length : Nat) (words : List (BitVec 32))
  | clearing (remaining : List Nat)
  deriving DecidableEq

/-- Both parties and the messages that went through. -/
structure Handshake (State : Type u) where
  registers : State
  sender : Sender := .idle
  receiver : Receiver := .idle
  sent : List (List Byte) := []
  received : List (List Byte) := []

inductive HandshakeStep (Access : Type v)
  /-- The sender reads the last register, and takes up a message if it is clear. -/
  | start (message : List Byte)
  /-- The sender's next write. -/
  | send
  /-- The receiver's next read, or its clearing of the last register. -/
  | receive
  /-- The receiver clears one of the registers below the last one. -/
  | clear (register : Nat)
  | other (access : Access)

namespace Handshake

variable {State : Type u} {Access : Type v} (doorbells : Doorbells State Access)

/-- What the sender writes to a register below the last one. -/
def slot (message : List Byte) : Nat → BitVec 32
  | 0 => BitVec.ofNat 32 message.length
  | index + 1 => wordAt message index

/-- The sender's next write. -/
def send (state : Handshake State) : Option (Handshake State) :=
  match state.sender with
  | .idle => none
  | .sending message 0 =>
      (doorbells.set state.registers 0 (slot message 0)).map fun registers =>
        { state with registers := registers, sender := .sending message 1 }
  | .sending message (index + 1) =>
      if 4 * index < message.length ∧ index + 1 < doorbells.last then
        (doorbells.set state.registers (index + 1) (slot message (index + 1))).map
          fun registers =>
            { state with registers := registers, sender := .sending message (index + 2) }
      else
        (doorbells.set state.registers doorbells.last doorbells.notifyValue).map fun registers =>
          { state with
            registers := registers
            sender := .idle
            sent := state.sent ++ [message] }

/-- The receiver's next read; with every lower register cleared, it clears the last one. -/
def receive (state : Handshake State) : Option (Handshake State) :=
  match state.receiver with
  | .idle =>
      (doorbells.readReceiver state.registers doorbells.last).map fun value =>
        if value = 0 then state else { state with receiver := .announced }
  | .announced =>
      (doorbells.readReceiver state.registers 0).map fun value =>
        { state with receiver := .reading value.toNat [] }
  | .reading length words =>
      if 4 * words.length < length ∧ words.length + 1 < doorbells.last then
        (doorbells.readReceiver state.registers (words.length + 1)).map fun value =>
          { state with receiver := .reading length (words ++ [value]) }
      else
        some { state with
          received := state.received ++ [(words.flatMap (toBytes 4)).take length]
          receiver := .clearing (List.range doorbells.last) }
  | .clearing remaining =>
      if remaining = [] then
        (doorbells.clear state.registers doorbells.last (BitVec.allOnes 32)).map
          fun registers => { state with registers := registers, receiver := .idle }
      else none

def step (state : Handshake State) : HandshakeStep Access → Option (Handshake State)
  | .start message =>
      if state.sender = .idle ∧ message.length ≤ 4 * (doorbells.last - 1) then
        (doorbells.readSender state.registers doorbells.last).map fun value =>
          if value = 0 then { state with sender := .sending message 0 } else state
      else none
  | .send => state.send doorbells
  | .receive => state.receive doorbells
  | .clear register =>
      match state.receiver with
      | .clearing remaining =>
          if register ∈ remaining then
            (doorbells.clear state.registers register (BitVec.allOnes 32)).map fun registers =>
              { state with
                registers := registers
                receiver := .clearing (remaining.filter (· ≠ register)) }
          else none
      | _ => none
  | .other access =>
      (doorbells.other state.registers access).map fun registers =>
        { state with registers := registers }

/-- The registers hold a whole message and announce it. -/
structure Carries (last : Nat) (status : Nat → BitVec 32) (message : List Byte) : Prop where
  fits : message.length ≤ 4 * (last - 1)
  slots : ∀ index < last, status index = slot message index
  announces : status last ≠ 0

/-- What the registers hold and how far the receiver is behind, for each pair of positions
that the parties can be in together. -/
inductive Phase (last : Nat) (status : Nat → BitVec 32) (sent received : List (List Byte)) :
    Sender → Receiver → Prop
  | clear (level : received = sent) (zero : ∀ index ≤ last, status index = 0) :
      Phase last status sent received .idle .idle
  | filling {message : List Byte} {position : Nat} (level : received = sent)
      (fits : message.length ≤ 4 * (last - 1)) (inside : position ≤ last)
      (slots : ∀ index < last,
        status index = if index < position then slot message index else 0)
      (silent : status last = 0) :
      Phase last status sent received (.sending message position) .idle
  | full {message : List Byte} (behind : sent = received ++ [message])
      (carries : Carries last status message) :
      Phase last status sent received .idle .idle
  | announced {message : List Byte} (behind : sent = received ++ [message])
      (carries : Carries last status message) :
      Phase last status sent received .idle .announced
  | reading {message : List Byte} {words : List (BitVec 32)}
      (behind : sent = received ++ [message]) (carries : Carries last status message)
      (inside : words.length + 1 ≤ last)
      (read : words = (List.range words.length).map (wordAt message)) :
      Phase last status sent received .idle (.reading message.length words)
  | clearing {remaining : List Nat} (level : received = sent) (announces : status last ≠ 0)
      (inside : ∀ index ∈ remaining, index < last)
      (cleared : ∀ index < last, index ∉ remaining → status index = 0) :
      Phase last status sent received .idle (.clearing remaining)

/-- The invariant of the handshake. -/
structure Sound (state : Handshake State) : Prop where
  valid : doorbells.Valid state.registers
  phase : Phase doorbells.last (doorbells.status state.registers) state.sent state.received
    state.sender state.receiver

section Phases

variable {last : Nat} {before after : Nat → BitVec 32}

theorem Carries.congr {message : List Byte} (carries : Carries last before message)
    (same : ∀ index ≤ last, after index = before index) : Carries last after message where
  fits := carries.fits
  slots index low := by rw [same index (Nat.le_of_lt low), carries.slots index low]
  announces := by rw [same last le_rfl]; exact carries.announces

/-- A phase speaks of the registers up to the last one only. -/
theorem Phase.congr {sent received : List (List Byte)} {sender : Sender} {receiver : Receiver}
    (phase : Phase last before sent received sender receiver)
    (same : ∀ index ≤ last, after index = before index) :
    Phase last after sent received sender receiver := by
  cases phase with
  | clear level zero =>
      exact .clear level fun index low => by rw [same index low, zero index low]
  | filling level fits inside slots silent =>
      exact .filling level fits inside
        (fun index low => by rw [same index (Nat.le_of_lt low), slots index low])
        (by rw [same last le_rfl, silent])
  | full behind carries => exact .full behind (carries.congr same)
  | announced behind carries => exact .announced behind (carries.congr same)
  | reading behind carries inside read => exact .reading behind (carries.congr same) inside read
  | clearing level announces inside cleared =>
      exact .clearing level (by rwa [same last le_rfl]) inside fun index low out => by
        rw [same index (Nat.le_of_lt low), cleared index low out]

theorem Phase.received_isPrefix {status : Nat → BitVec 32} {sent received : List (List Byte)}
    {sender : Sender} {receiver : Receiver}
    (phase : Phase last status sent received sender receiver) : received <+: sent := by
  cases phase with
  | clear level => exact level ▸ List.prefix_rfl
  | filling level => exact level ▸ List.prefix_rfl
  | full behind => exact ⟨_, behind.symm⟩
  | announced behind => exact ⟨_, behind.symm⟩
  | reading behind => exact ⟨_, behind.symm⟩
  | clearing level => exact level ▸ List.prefix_rfl

/-- Words past the end of a message are zero. -/
theorem slot_of_length_le {message : List Byte} {index : Nat}
    (beyond : message.length ≤ 4 * index) : slot message (index + 1) = 0 :=
  wordAt_of_length_le beyond

end Phases

section Steps

variable {doorbells} {state next : Handshake State}

theorem sound_start (sound : Sound doorbells state) {message : List Byte}
    (stepped : state.step doorbells (.start message) = some next) : Sound doorbells next := by
  dsimp only [step] at stepped
  split_ifs at stepped with ready
  rw [doorbells.readSender_eq sound.valid le_rfl, Option.map_some, Option.some.injEq] at stepped
  obtain ⟨valid, phase⟩ := sound
  split_ifs at stepped with silent
  · subst stepped
    refine ⟨valid, ?_⟩
    dsimp only
    rw [ready.1] at phase
    generalize state.receiver = receiver at phase
    cases phase with
    | clear level zero =>
        exact .filling level ready.2 (Nat.zero_le _)
          (fun index low => by rw [zero index (Nat.le_of_lt low), if_neg (Nat.not_lt_zero _)])
          silent
    | full _ carries => exact absurd silent carries.announces
    | announced _ carries => exact absurd silent carries.announces
    | reading _ carries => exact absurd silent carries.announces
    | clearing _ announces => exact absurd silent announces
  · subst stepped
    exact ⟨valid, phase⟩

theorem sound_other (sound : Sound doorbells state) {access : Access}
    (stepped : state.step doorbells (.other access) = some next) : Sound doorbells next := by
  obtain ⟨registers, accessed, rfl⟩ := Option.map_eq_some_iff.mp stepped
  obtain ⟨valid, same⟩ := doorbells.other_eq sound.valid accessed
  exact ⟨valid, sound.phase.congr same⟩

/-- Writing the next slot of a message that is being filled in. -/
theorem slots_set {last : Nat} {before after : Nat → BitVec 32} {message : List Byte}
    {position : Nat}
    (slots : ∀ index < last, before index = if index < position then slot message index else 0)
    (inside : position < last)
    (updated : ∀ index ≤ last, after index =
      if index = position then before position ||| slot message position else before index) :
    ∀ index < last, after index = if index < position + 1 then slot message index else 0 := by
  intro index low
  rw [updated index (Nat.le_of_lt low)]
  by_cases here : index = position
  · subst here
    rw [if_pos rfl, if_pos (Nat.lt_succ_self _), slots index low, if_neg (Nat.lt_irrefl _)]
    exact BitVec.zero_or
  · rw [if_neg here, slots index low]
    split_ifs <;> first | rfl | omega

theorem sound_send (sound : Sound doorbells state)
    (stepped : state.step doorbells .send = some next) : Sound doorbells next := by
  have enough := doorbells.enough
  obtain ⟨valid, phase⟩ := sound
  dsimp only [step] at stepped
  unfold send at stepped
  generalize standing : state.sender = sender at phase stepped
  generalize waiting : state.receiver = receiver at phase
  cases phase with
  | @filling message position level fits inside slots silent =>
      cases position with
      | zero =>
          obtain ⟨registers, set, valid', updated⟩ :=
            doorbells.set_eq (slot message 0) valid (Nat.zero_le doorbells.last)
          simp only [set, Option.map_some, Option.some.injEq] at stepped
          subst stepped
          refine ⟨valid', ?_⟩
          dsimp only
          rw [waiting]
          refine .filling level fits (by omega) (slots_set slots (by omega) updated) ?_
          rw [updated _ le_rfl, if_neg (by omega), silent]
      | succ index =>
          dsimp only at stepped
          split_ifs at stepped with more
          · obtain ⟨registers, set, valid', updated⟩ :=
              doorbells.set_eq (slot message (index + 1)) valid inside
            simp only [set, Option.map_some, Option.some.injEq] at stepped
            subst stepped
            refine ⟨valid', ?_⟩
            dsimp only
            rw [waiting]
            refine .filling level fits (by omega) (slots_set slots more.2 updated) ?_
            rw [updated _ le_rfl, if_neg (by omega), silent]
          · obtain ⟨registers, set, valid', updated⟩ :=
              doorbells.set_eq doorbells.notifyValue valid le_rfl
            simp only [set, Option.map_some, Option.some.injEq] at stepped
            subst stepped
            refine ⟨valid', ?_⟩
            dsimp only
            rw [waiting]
            refine .full (by rw [level]) ⟨fits, fun other low => ?_, ?_⟩
            · rw [updated other (Nat.le_of_lt low), if_neg (by omega), slots other low]
              split_ifs with written
              · rfl
              · obtain ⟨word, rfl⟩ := Nat.exists_eq_add_of_lt (show 0 < other by omega)
                rw [Nat.zero_add, slot_of_length_le (by omega)]
            · rw [updated _ le_rfl, if_pos rfl, silent]
              exact BitVec.zero_or.trans_ne doorbells.notifies
  | _ => simp at stepped

theorem sound_receive (sound : Sound doorbells state)
    (stepped : state.step doorbells .receive = some next) : Sound doorbells next := by
  have enough := doorbells.enough
  have bounded := doorbells.bounded
  obtain ⟨valid, phase⟩ := sound
  dsimp only [step] at stepped
  unfold receive at stepped
  generalize standing : state.receiver = receiver at phase stepped
  generalize sending : state.sender = sender at phase
  cases phase with
  | clear level zero =>
      simp only [doorbells.readReceiver_eq valid le_rfl, Option.map_some, zero _ le_rfl, if_true,
        Option.some.injEq] at stepped
      subst stepped
      exact ⟨valid, by rw [sending, standing]; exact .clear level zero⟩
  | filling level fits inside slots silent =>
      simp only [doorbells.readReceiver_eq valid le_rfl, Option.map_some, silent, if_true,
        Option.some.injEq] at stepped
      subst stepped
      exact ⟨valid, by rw [sending, standing]; exact .filling level fits inside slots silent⟩
  | full behind carries =>
      simp only [doorbells.readReceiver_eq valid le_rfl, Option.map_some, carries.announces,
        if_false, Option.some.injEq] at stepped
      subst stepped
      exact ⟨valid, by dsimp only; rw [sending]; exact .announced behind carries⟩
  | @announced message behind carries =>
      have fits := carries.fits
      have length : (doorbells.status state.registers 0).toNat = message.length := by
        rw [carries.slots 0 (by omega), slot, BitVec.toNat_ofNat, Nat.mod_eq_of_lt (by omega)]
      simp only [doorbells.readReceiver_eq valid (Nat.zero_le _), Option.map_some, length,
        Option.some.injEq] at stepped
      subst stepped
      refine ⟨valid, ?_⟩
      dsimp only
      rw [sending]
      exact .reading behind carries (by simp; omega) rfl
  | @reading message words behind carries inside read =>
      have fits := carries.fits
      dsimp only at stepped
      split_ifs at stepped with more
      · simp only [doorbells.readReceiver_eq valid inside, Option.map_some,
          carries.slots _ more.2, slot, Option.some.injEq] at stepped
        subst stepped
        refine ⟨valid, ?_⟩
        dsimp only
        rw [sending]
        refine .reading behind carries (by rw [List.length_append]; exact more.2) ?_
        rw [List.length_append, List.length_singleton, List.range_succ, List.map_append, ← read,
          List.map_singleton]
      · rw [Option.some.injEq] at stepped
        subst stepped
        refine ⟨valid, ?_⟩
        dsimp only
        rw [sending]
        -- The words read are all the words that the message has.
        have delivered : (words.flatMap (toBytes 4)).take message.length = message := by
          rw [read, List.flatMap_map]
          exact take_flatMap_wordAt message (by omega)
        refine .clearing (by rw [delivered, behind]) carries.announces
          (fun index member => List.mem_range.mp member) fun index low out => ?_
        exact absurd (List.mem_range.mpr low) out
  | clearing level announces inside cleared =>
      dsimp only at stepped
      split_ifs at stepped with done
      obtain ⟨registers, clear, valid', updated⟩ :=
        doorbells.clear_eq (BitVec.allOnes 32) valid le_rfl
      simp only [clear, Option.map_some, Option.some.injEq] at stepped
      subst stepped
      refine ⟨valid', ?_⟩
      dsimp only
      rw [sending]
      refine .clear level fun index low => ?_
      rw [updated index low]
      split_ifs with same
      · simp
      · exact cleared index (Nat.lt_of_le_of_ne low same) (by simp [done])

theorem sound_clear (sound : Sound doorbells state) {register : Nat}
    (stepped : state.step doorbells (.clear register) = some next) : Sound doorbells next := by
  obtain ⟨valid, phase⟩ := sound
  dsimp only [step] at stepped
  generalize standing : state.receiver = receiver at phase stepped
  generalize sending : state.sender = sender at phase
  cases phase with
  | clearing level announces inside cleared =>
      dsimp only at stepped
      split_ifs at stepped with member
      have below := inside register member
      obtain ⟨registers, clear, valid', updated⟩ :=
        doorbells.clear_eq (BitVec.allOnes 32) valid (Nat.le_of_lt below)
      simp only [clear, Option.map_some, Option.some.injEq] at stepped
      subst stepped
      refine ⟨valid', ?_⟩
      dsimp only
      rw [sending]
      refine .clearing level ?_ (fun index kept => inside index (List.mem_filter.mp kept).1) ?_
      · rw [updated _ le_rfl, if_neg (by omega)]
        exact announces
      · intro index low out
        rw [updated index (Nat.le_of_lt low)]
        split_ifs with same
        · simp
        · exact cleared index low fun kept => out (List.mem_filter.mpr ⟨kept, by simpa using same⟩)
  | _ => simp at stepped

/-- Every step of either party, and every other access, keeps the invariant. -/
theorem sound_step {event : HandshakeStep Access} (sound : Sound doorbells state)
    (stepped : state.step doorbells event = some next) : Sound doorbells next := by
  cases event with
  | start message => exact sound_start sound stepped
  | send => exact sound_send sound stepped
  | receive => exact sound_receive sound stepped
  | clear register => exact sound_clear sound stepped
  | other access => exact sound_other sound stepped

/-- From clear registers, whatever the order of the accesses. -/
theorem sound_run {registers : State} {final : Handshake State}
    {events : List (HandshakeStep Access)} (valid : doorbells.Valid registers)
    (zero : ∀ index ≤ doorbells.last, doorbells.status registers index = 0)
    (reached : run (step doorbells) { registers := registers } events = some final) :
    Sound doorbells final :=
  run_invariant (fun _ _ _ sound stepped => sound_step sound stepped)
    ⟨valid, .clear rfl zero⟩ reached

end Steps

end Handshake

end Foundation
