import QboxPlatform.Foundation.Serving
import QboxPlatform.StrataFlash.Chip

/-!
# The flash behind a driver

The command sequences of a driver make the chip an array of cells that can be read, programmed and
erased, whatever else happens to the module in between.
-/

namespace QboxPlatform.StrataFlash

open Foundation

/-- What a driver asks of the flash.  The data of a buffer come in pieces. -/
inductive Request
  | read (offset : BitVec 64) (len : Nat)
  | program (offset : BitVec 64) (data : List Byte)
  | programBuffer (offset : BitVec 64) (pieces : List (List Byte))
  | eraseSector (offset : BitVec 64)

namespace Request

/-- The pieces at addresses behind one another. -/
def pieceWrites : Nat → List (List Byte) → List Access
  | _, [] => []
  | base, piece :: rest =>
      .write (BitVec.ofNat 64 base) piece :: pieceWrites (base + piece.length) rest

theorem map_pieceWrites {Answer : Type} (answer : Answer) (base : Nat)
    (pieces : List (List Byte)) :
    (pieceWrites base pieces).map (fun _ => answer) = pieces.map fun _ => answer := by
  induction pieces generalizing base with
  | nil => rfl
  | cons piece rest inductionHypothesis =>
      rw [pieceWrites, List.map_cons, List.map_cons, inductionHypothesis]

/-- The command sequence of a request. -/
def accesses : Request → List Access
  | .read offset len => [.write offset [cmdReadArray], .read offset len]
  | .program offset data => [.write offset [cmdWordProgram], .write offset data]
  | .programBuffer offset pieces =>
      .write offset [cmdWriteToBuffer] ::
        .write offset [BitVec.ofNat 8 (pieces.flatten.length - 1)] ::
          (pieceWrites offset.toNat pieces ++ [.write offset [cmdBlockEraseAck]])
  | .eraseSector offset => [.write offset [cmdBlockErase], .write offset [cmdBlockEraseAck]]

/-- The request lies inside the array, and inside a buffer if it is for one. -/
def Fits (size : Nat) : Request → Prop
  | .read offset len => len ≠ 0 ∧ offset.toNat + len ≤ size
  | .program offset data => data ≠ [] ∧ offset.toNat + data.length ≤ size
  | .programBuffer offset pieces =>
      pieces ≠ [] ∧ (∀ piece ∈ pieces, piece ≠ []) ∧ pieces.flatten.length ≤ writeBufferMax ∧
        offset.toNat + pieces.flatten.length ≤ size
  | .eraseSector offset => offset.toNat < size

/-- The answers to the accesses of a request on some cells. -/
def replies (cells : Cells) : Request → List Response
  | .read offset len => [.ok [], .ok (cells.bytes.read offset.toNat len)]
  | request => request.accesses.map fun _ => .ok []

/-- What a request makes of the cells. -/
def perform (cells : Cells) : Request → Cells
  | .read _ _ => cells
  | .program offset data => cells.program offset.toNat data
  | .programBuffer offset pieces => cells.program offset.toNat pieces.flatten
  | .eraseSector offset => cells.erase offset.toNat

/-- What a request answers, and makes of the cells. -/
def respond (cells : Cells) (request : Request) : List Response × Cells :=
  (request.replies cells, request.perform cells)

end Request

/-- The access that an event is. -/
def FlashEvent.issued : FlashEvent → Option Access
  | .access request _ => some request
  | _ => none

/-- The event is an access, or one that the cells do not see. -/
def FlashEvent.LeavesCells : FlashEvent → Prop
  | .load _ _ | .setSize _ | .setSectorSize _ => False
  | .setProgramFfSetsBits _ | .setProgramFfErasesSector _ => False
  | _ => True

theorem FlashEvent.LeavesCells.keepsGeometry {event : FlashEvent} (quiet : event.LeavesCells) :
    event.KeepsGeometry := by
  cases event with
  | setSize size => exact quiet
  | setSectorSize size => exact quiet.elim
  | _ => trivial

namespace Chip

variable {chip : Chip}

theorem access_write {offset : BitVec 64} {data : List Byte} (some : data ≠ [])
    (inside : offset.toNat + data.length ≤ chip.size) :
    chip.access (.write offset data) = (.ok [], chip.write offset.toNat data) := by
  have length := List.length_pos_iff.mpr some
  unfold Chip.access
  rw [if_pos ⟨length.ne', inside⟩]

theorem access_command {offset : BitVec 64} (inside : offset.toNat < chip.size) (command : Byte) :
    chip.access (.write offset [command]) = (.ok [], chip.write offset.toNat [command]) :=
  access_write (List.cons_ne_nil _ _) inside

/-- A command of its own, from an idle chip. -/
theorem write_command (idle : chip.control.pending = .none) (offset : Nat) (command : Byte) :
    chip.write offset [command] = chip.start command := by
  rw [write, idle]
  rfl

theorem serve_pair (chip : Chip) (first second : Access) :
    serve Chip.access chip [first, second] =
      ([(chip.access first).1, ((chip.access first).2.access second).1],
        ((chip.access first).2.access second).2) := rfl

theorem access_read {offset : BitVec 64} {len : Nat} (some : len ≠ 0)
    (inside : offset.toNat + len ≤ chip.size) (mode : chip.control.mode = .readArray) :
    chip.access (.read offset len) = (.ok (chip.bytes.read offset.toNat len), chip) := by
  have shown : ((List.range len).map fun index => chip.readByte (offset.toNat + index)) =
      chip.bytes.read offset.toNat len := by
    apply List.map_congr_left
    intro index _
    rw [readByte, mode]
  unfold Chip.access
  rw [if_pos ⟨some, inside⟩, ← shown]

theorem serve_read (idle : chip.control.pending = .none) {offset : BitVec 64} {len : Nat}
    (some : len ≠ 0) (inside : offset.toNat + len ≤ chip.size) :
    ∃ final, serve Chip.access chip (Request.read offset len).accesses =
        ([.ok [], .ok (chip.bytes.read offset.toNat len)], final) ∧
      final.toCells = chip.toCells ∧ final.control.pending = .none := by
  have started : chip.access (.write offset [cmdReadArray]) =
      (.ok [], chip.start cmdReadArray) := by
    rw [access_command (by omega), write_command idle]
  have shown : (chip.start cmdReadArray).access (.read offset len) =
      (.ok (chip.bytes.read offset.toNat len), chip.start cmdReadArray) :=
    access_read some inside rfl
  refine ⟨chip.start cmdReadArray, ?_, rfl, rfl⟩
  rw [Request.accesses, serve_pair, started, shown]

theorem serve_program (idle : chip.control.pending = .none) {offset : BitVec 64}
    {data : List Byte} (some : data ≠ []) (inside : offset.toNat + data.length ≤ chip.size) :
    ∃ final, serve Chip.access chip (Request.program offset data).accesses =
        ([.ok [], .ok []], final) ∧
      final.toCells = chip.toCells.program offset.toNat data ∧
      final.control.pending = .none := by
  have length := List.length_pos_iff.mpr some
  have started : chip.access (.write offset [cmdWordProgram]) =
      (.ok [], chip.start cmdWordProgram) := by
    rw [access_command (by omega), write_command idle]
  have programmed : (chip.start cmdWordProgram).access (.write offset data) =
      (.ok [], ((chip.start cmdWordProgram).program offset.toNat data).ready) :=
    access_write some inside
  refine ⟨((chip.start cmdWordProgram).program offset.toNat data).ready, ?_, rfl, rfl⟩
  rw [Request.accesses, serve_pair, started, programmed]

theorem serve_eraseSector (idle : chip.control.pending = .none) {offset : BitVec 64}
    (inside : offset.toNat < chip.size) :
    ∃ final, serve Chip.access chip (Request.eraseSector offset).accesses =
        ([.ok [], .ok []], final) ∧
      final.toCells = chip.toCells.erase offset.toNat ∧ final.control.pending = .none := by
  have started : chip.access (.write offset [cmdBlockErase]) =
      (.ok [], chip.start cmdBlockErase) := by
    rw [access_command inside, write_command idle]
  have erased : (chip.start cmdBlockErase).access (.write offset [cmdBlockEraseAck]) =
      (.ok [], ((chip.start cmdBlockErase).erase offset.toNat).ready) :=
    @access_command (chip.start cmdBlockErase) offset inside cmdBlockEraseAck
  refine ⟨((chip.start cmdBlockErase).erase offset.toNat).ready, ?_, rfl, rfl⟩
  rw [Request.accesses, serve_pair, started, erased]

/-- Replacing a part replaces it. -/
theorem overwrite_eq {Item : Type} (front replaced data back : List Item)
    (length : replaced.length = data.length) :
    Flash.overwrite (front ++ replaced ++ back) front.length data = front ++ data ++ back := by
  apply List.ext_getElem
  · rw [Flash.length_overwrite]
    simp only [List.length_append, length]
  · intro index left right
    simp only [Flash.overwrite, List.getElem_mapIdx, List.getElem_append, List.length_append]
    by_cases early : index < front.length
    · have before : index < front.length + replaced.length := by omega
      have same : index < front.length + data.length := by omega
      simp only [early, before, same, Nat.not_le.mpr early, if_false, dif_pos]
    · by_cases middle : index < front.length + data.length
      · have inside : index - front.length < data.length := by omega
        simp only [early, middle, Nat.le_of_not_lt early, if_true, dif_pos, dif_neg,
          not_false_eq_true, List.getD_eq_getElem _ _ inside]
      · have beyond : data.length ≤ index - front.length := by omega
        simp only [middle, Nat.le_of_not_lt early, if_true, dif_neg, not_false_eq_true,
          List.getD_eq_default _ _ beyond, length]

/-- A chip that has taken in some data from the base on. -/
structure Fills (origin : Chip) (base : Nat) (taken : List Byte) (total : Nat) (chip : Chip) :
    Prop where
  cells : chip.toCells = origin.toCells
  pending : chip.control.pending = .writeBufferData
  buffer : chip.buffer =
    ⟨base, taken ++ List.replicate (total - taken.length) 0xff,
      List.replicate taken.length true ++ List.replicate (total - taken.length) false⟩

variable {origin : Chip} {base total : Nat} {taken : List Byte}

/-- Taking in a piece fills the next places. -/
theorem overwrite_replicate {Item : Type} (taken piece : List Item) (blank : Item) {left : Nat}
    (fits : piece.length ≤ left) :
    Flash.overwrite (taken ++ List.replicate left blank) taken.length piece =
      taken ++ piece ++ List.replicate (left - piece.length) blank := by
  have parts : List.replicate left blank =
      List.replicate piece.length blank ++ List.replicate (left - piece.length) blank := by
    rw [← List.replicate_add, Nat.add_sub_cancel' fits]
  rw [parts, ← List.append_assoc, overwrite_eq _ _ _ _ List.length_replicate]

theorem Fills.incomplete (fills : Fills origin base taken total chip) (more : taken.length < total)
    (data : List Byte) : ¬chip.Confirms data := by
  rintro ⟨complete, -⟩
  rw [Chip.complete, fills.buffer, Bool.and_eq_true] at complete
  have missing : false ∈ List.replicate taken.length true ++
      List.replicate (total - taken.length) false :=
    List.mem_append_right _ (List.mem_replicate.mpr ⟨by omega, rfl⟩)
  exact Bool.false_ne_true (List.all_eq_true.mp complete.2 false missing)

theorem Fills.piece (fills : Fills origin base taken total chip) {piece : List Byte}
    (some : piece ≠ []) (fits : taken.length + piece.length ≤ total)
    (inside : base + total ≤ origin.size) (small : origin.size ≤ 2 ^ 64) :
    ∃ next, chip.access (.write (BitVec.ofNat 64 (base + taken.length)) piece) = (.ok [], next) ∧
      Fills origin base (taken ++ piece) total next := by
  have length := List.length_pos_iff.mpr some
  have place : (BitVec.ofNat 64 (base + taken.length)).toNat = base + taken.length := by
    rw [BitVec.toNat_ofNat, Nat.mod_eq_of_lt (by omega)]
  have size : chip.size = origin.size := congrArg Cells.size fills.cells
  have accessed := @access_write chip (BitVec.ofNat 64 (base + taken.length)) piece some
    (by rw [place, size]; omega)
  have buffered : chip.buffer.data.length = total := by
    rw [fills.buffer, List.length_append, List.length_replicate]
    omega
  have start : chip.buffer.base = base := by rw [fills.buffer]
  have reached : ¬(base + taken.length < chip.buffer.base ∨
      chip.buffer.base + chip.buffer.data.length ≤ base + taken.length) := by
    rw [start, buffered]
    omega
  have copied : piece.take (chip.buffer.data.length - (base + taken.length - chip.buffer.base)) =
      piece := by
    apply List.take_of_length_le
    rw [start, buffered]
    omega
  refine ⟨_, accessed, ?_⟩
  rw [place, write, fills.pending]
  dsimp only
  rw [if_neg (fills.incomplete (by omega) piece), collect]
  dsimp only
  rw [if_neg reached, copied]
  have marks : (piece.map fun _ => true) = List.replicate piece.length true := List.map_const' ..
  constructor
  · exact fills.cells
  · exact fills.pending
  · have left : total - taken.length - piece.length = total - (taken ++ piece).length := by
      rw [List.length_append]
      omega
    have flags : Flash.overwrite (List.replicate taken.length true ++
        List.replicate (total - taken.length) false) taken.length (piece.map fun _ => true) =
        List.replicate (taken ++ piece).length true ++
          List.replicate (total - (taken ++ piece).length) false := by
      have replaced := @overwrite_replicate _ (List.replicate taken.length true)
        (piece.map fun _ => true) false (total - taken.length) (by
          rw [List.length_map]
          omega)
      rw [List.length_replicate, List.length_map, left] at replaced
      rw [replaced, marks, ← List.replicate_add, List.length_append]
    have bytes : Flash.overwrite (taken ++ List.replicate (total - taken.length) 0xff)
        taken.length piece =
        taken ++ piece ++ List.replicate (total - (taken ++ piece).length) 0xff := by
      rw [overwrite_replicate taken piece 0xff (by omega), left]
    dsimp only
    rw [start, Nat.add_sub_cancel_left, fills.buffer]
    dsimp only
    rw [flags, bytes]

/-- Giving the data piece by piece. -/
theorem Fills.pieces (inside : base + total ≤ origin.size) (small : origin.size ≤ 2 ^ 64)
    {pieces : List (List Byte)} {taken : List Byte} {chip : Chip}
    (fills : Fills origin base taken total chip) (some : ∀ piece ∈ pieces, piece ≠ [])
    (length : taken.length + pieces.flatten.length = total) :
    ∃ filled, serve Chip.access chip (Request.pieceWrites (base + taken.length) pieces) =
        (pieces.map fun _ => .ok [], filled) ∧
      Fills origin base (taken ++ pieces.flatten) total filled := by
  induction pieces generalizing chip taken with
  | nil => exact ⟨chip, rfl, by rwa [List.flatten_nil, List.append_nil]⟩
  | cons piece rest inductionHypothesis =>
      rw [List.flatten_cons, List.length_append] at length
      obtain ⟨next, accessed, filled⟩ :=
        fills.piece (some piece List.mem_cons_self) (by omega) inside small
      obtain ⟨final, served, full⟩ := inductionHypothesis filled
        (fun later member => some later (List.mem_cons_of_mem _ member))
        (by rw [List.length_append]; omega)
      refine ⟨final, ?_, ?_⟩
      · rw [List.length_append, ← Nat.add_assoc] at served
        rw [Request.pieceWrites, serve_cons, accessed, served]
        rfl
      · rw [List.flatten_cons, ← List.append_assoc]
        exact full

/-- All the data are there. -/
theorem Fills.confirms (fills : Fills origin base taken total chip) (some : taken ≠ [])
    (full : taken.length = total) : chip.Confirms [cmdBlockEraseAck] := by
  have length := List.length_pos_iff.mpr some
  have flags : chip.buffer.written = List.replicate total true := by
    rw [fills.buffer]
    dsimp only
    rw [full, Nat.sub_self, List.replicate_zero, List.append_nil]
  have present : List.replicate total true ≠ [] := by
    rw [ne_eq, List.replicate_eq_nil_iff]
    omega
  refine ⟨?_, rfl⟩
  rw [Chip.complete, flags, Bool.and_eq_true]
  exact ⟨decide_eq_true present, List.all_eq_true.mpr fun flag member =>
    (List.mem_replicate.mp member).2⟩

theorem serve_programBuffer (idle : chip.control.pending = .none) (small : chip.size ≤ 2 ^ 64)
    {offset : BitVec 64} {pieces : List (List Byte)}
    (fits : (Request.programBuffer offset pieces).Fits chip.size) :
    ∃ final, serve Chip.access chip (Request.programBuffer offset pieces).accesses =
        ((Request.programBuffer offset pieces).accesses.map fun _ => .ok [], final) ∧
      final.toCells = chip.toCells.program offset.toNat pieces.flatten ∧
      final.control.pending = .none := by
  obtain ⟨present, nonempty, short, inside⟩ := fits
  have some : pieces.flatten ≠ [] := by
    obtain ⟨piece, member⟩ := List.exists_mem_of_ne_nil pieces present
    intro none
    exact nonempty piece member (List.flatten_eq_nil_iff.mp none piece member)
  have length := List.length_pos_iff.mpr some
  have number : Flash.countValue [BitVec.ofNat 8 (pieces.flatten.length - 1)] =
      pieces.flatten.length := by
    rw [writeBufferMax] at short
    rw [Flash.countValue, if_neg (List.cons_ne_nil _ _), List.getD_cons_zero, BitVec.toNat_ofNat,
      Nat.mod_eq_of_lt (by omega), Nat.sub_add_cancel length]
  have started : chip.access (.write offset [cmdWriteToBuffer]) =
      (.ok [], chip.start cmdWriteToBuffer) := by
    rw [access_command (by omega), write_command idle]
  have counted := @access_command (chip.start cmdWriteToBuffer) offset
    (show offset.toNat < chip.size by omega) (BitVec.ofNat 8 (pieces.flatten.length - 1))
  have begun : Fills chip offset.toNat [] pieces.flatten.length
      ((chip.start cmdWriteToBuffer).write offset.toNat
        [BitVec.ofNat 8 (pieces.flatten.length - 1)]) := by
    have accepted : ¬(pieces.flatten.length = 0 ∨ writeBufferMax < pieces.flatten.length ∨
        (chip.start cmdWriteToBuffer).size < offset.toNat + pieces.flatten.length) := by
      have size : (chip.start cmdWriteToBuffer).size = chip.size := rfl
      omega
    show Fills _ _ _ _ ((chip.start cmdWriteToBuffer).begin offset.toNat _)
    unfold begin
    rw [number]
    dsimp only
    rw [if_neg accepted]
    exact ⟨rfl, rfl, rfl⟩
  obtain ⟨filled, written, full⟩ := begun.pieces inside small nonempty (Nat.zero_add _)
  rw [List.length_nil, Nat.add_zero] at written
  rw [List.nil_append] at full
  have size : filled.size = chip.size := congrArg Cells.size full.cells
  have confirmed := @access_command filled offset (by omega) cmdBlockEraseAck
  have stored : filled.write offset.toNat [cmdBlockEraseAck] =
      (filled.program offset.toNat pieces.flatten).ready.clear := by
    rw [write, full.pending]
    dsimp only
    rw [if_pos (full.confirms some rfl), full.buffer]
    dsimp only
    rw [Nat.sub_self, List.replicate_zero, List.append_nil]
  refine ⟨(filled.program offset.toNat pieces.flatten).ready.clear, ?_, ?_, rfl⟩
  · rw [Request.accesses, serve_cons, started, serve_cons, counted]
    dsimp only
    rw [serve_append, written]
    dsimp only
    rw [serve_cons, confirmed, stored, List.map_cons, List.map_cons, List.map_append,
      Request.map_pieceWrites]
    rfl
  · exact congrArg (Cells.program · offset.toNat pieces.flatten) full.cells

theorem respond_of_issued {event : FlashEvent} {request : Access}
    (issued : event.issued = some request) (chip : Chip) :
    chip.respond event = (some (chip.access request).1, (chip.access request).2) := by
  cases event with
  | access access debug =>
      obtain rfl := Option.some.inj issued
      rfl
  | _ => cases issued

theorem respond_of_silent {event : FlashEvent} (quiet : event.LeavesCells)
    (silent : event.issued = none) (chip : Chip) : chip.respond event = (none, chip) := by
  cases event with
  | access access debug => cases silent
  | load offset data => exact quiet.elim
  | setSectorSize size => exact quiet.elim
  | setProgramFfSetsBits enable => exact quiet.elim
  | setProgramFfErasesSector enable => exact quiet.elim
  | _ => rfl

/-- A chip that is ready for a request and has these cells. -/
structure Holds (size : Nat) (cells : Cells) (chip : Chip) : Prop where
  cells : chip.toCells = cells
  idle : chip.control.pending = .none
  size : chip.size = size

theorem serve_request {size : Nat} (small : size ≤ 2 ^ 64) {cells : Cells} {chip : Chip}
    {request : Request} (fits : request.Fits size) (holds : Holds size cells chip) :
    ∃ final, serve Chip.access chip request.accesses = ((request.respond cells).1, final) ∧
      Holds size (request.respond cells).2 final := by
  obtain ⟨rfl, idle, rfl⟩ := holds
  cases request with
  | read offset len =>
      obtain ⟨final, served, same, still⟩ := serve_read idle fits.1 fits.2
      exact ⟨final, served, same, still, congrArg Cells.size same⟩
  | program offset data =>
      obtain ⟨final, served, same, still⟩ := serve_program idle fits.1 fits.2
      exact ⟨final, served, same, still, (congrArg Cells.size same).trans
        (sameGeometry_program chip.toCells offset.toNat data).size⟩
  | programBuffer offset pieces =>
      obtain ⟨final, served, same, still⟩ := serve_programBuffer idle small fits
      exact ⟨final, served, same, still, (congrArg Cells.size same).trans
        (sameGeometry_program chip.toCells offset.toNat pieces.flatten).size⟩
  | eraseSector offset =>
      obtain ⟨final, served, same, still⟩ := serve_eraseSector idle fits
      exact ⟨final, served, same, still, (congrArg Cells.size same).trans rfl⟩

/-- The requests one after the other, whatever happens in between. -/
theorem serve_requests {chip : Chip} (idle : chip.control.pending = .none)
    (small : chip.size ≤ 2 ^ 64) {requests : List Request}
    (fit : ∀ request ∈ requests, request.Fits chip.size) {events : List FlashEvent}
    (quiet : ∀ event ∈ events, event.LeavesCells)
    (issued : events.filterMap FlashEvent.issued = requests.flatMap Request.accesses) :
    (serve Chip.respond chip events).1.filterMap id =
        (serve (fun cells request => request.respond cells) chip.toCells requests).1.flatten ∧
      Holds chip.size (serve (fun cells request => request.respond cells) chip.toCells requests).2
        (serve Chip.respond chip events).2 := by
  have seen := @serve_filterMap _ _ _ Chip.access _ Chip.respond FlashEvent.issued events
    (fun _ _ chip _ issued => respond_of_issued issued chip)
    (fun event member chip silent => respond_of_silent (quiet event member) silent chip) chip
  obtain ⟨final, served, holds⟩ := @serve_flatMap _ _ _ Chip.access _ _ Request.accesses
    (·.Fits chip.size) (fun cells request => request.respond cells) (Holds chip.size)
    (fun cells state request => serve_request small) requests fit chip.toCells chip
    ⟨rfl, idle, rfl⟩
  rw [issued, served] at seen
  obtain ⟨answers, reached⟩ := Prod.mk.inj seen
  exact ⟨answers, reached ▸ holds⟩

end Chip

namespace Flash

variable {flash : Flash}

/-- A flash that was reached without a change of the geometry has sectors and is well formed. -/
theorem wellFormed_answers (wellFormed : flash.WellFormed) (sectors : flash.chip.sectorSize ≠ 0)
    {events : List FlashEvent} (keeps : ∀ event ∈ events, event.KeepsGeometry)
    {seen : List (Option Response)} {final : Flash}
    (answered : flash.answers events = some (seen, final)) :
    final.WellFormed ∧ final.chip.sectorSize ≠ 0 := by
  induction events generalizing flash seen with
  | nil =>
      obtain ⟨-, rfl⟩ := Prod.mk.inj (Option.some.inj answered)
      exact ⟨wellFormed, sectors⟩
  | cons event rest inductionHypothesis =>
      obtain ⟨⟨output, next⟩, responded, later⟩ := Option.bind_eq_some_iff.mp answered
      obtain ⟨⟨replies, last⟩, onwards, same⟩ := Option.map_eq_some_iff.mp later
      obtain ⟨-, rfl⟩ := Prod.mk.inj same
      have here := respond_chip wellFormed (keeps event List.mem_cons_self) responded
      have still := Chip.sectorSize_respond (keeps event List.mem_cons_self) sectors
      rw [← here] at still
      have after := wellFormed_step wellFormed (congrArg (Option.map Prod.snd) responded)
      exact inductionHypothesis after still
        (fun later member => keeps later (List.mem_cons_of_mem _ member)) onwards

/-- From every state in which no command is open, the command sequences of a driver read, program
and erase the cells, and nothing else that happens meanwhile is seen. -/
theorem driver_on_cells (config : FlashConfig) (sectors : config.sectorSize ≠ 0)
    {before : List FlashEvent} (keeps : ∀ event ∈ before, event.KeepsGeometry)
    {seen : List (Option Response)} {flash : Flash}
    (reached : (start config).answers before = some (seen, flash))
    (idle : flash.control.pending = .none) {requests : List Request}
    (fit : ∀ request ∈ requests, request.Fits flash.chip.size) {events : List FlashEvent}
    (quiet : ∀ event ∈ events, event.LeavesCells)
    (issued : events.filterMap FlashEvent.issued = requests.flatMap Request.accesses) :
    ∃ answers final, flash.answers events = some (answers, final) ∧
      answers.filterMap id = (serve (fun cells request => request.respond cells)
        flash.chip.toCells requests).1.flatten ∧
      final.chip.toCells = (serve (fun cells request => request.respond cells)
        flash.chip.toCells requests).2 ∧
      final.control.pending = .none := by
  have nonzero : (start config).chip.sectorSize ≠ 0 := fun zero =>
    sectors (BitVec.eq_of_toNat_eq zero)
  obtain ⟨wellFormed, still⟩ :=
    wellFormed_answers (wellFormed_start config) nonzero keeps reached
  obtain ⟨final, answered, view⟩ := answers_chip wellFormed still fun event member =>
    (quiet event member).keepsGeometry
  have small : flash.chip.size ≤ 2 ^ 64 :=
    (flash.ensureStorage.array.fits.trans (by decide)).le
  obtain ⟨answers, holds⟩ := Chip.serve_requests idle small fit quiet issued
  rw [← view] at holds
  exact ⟨_, final, answered, answers, holds.cells, holds.idle⟩

/-- A sector is erased, programmed in two pieces and read back. -/
def updateRequests : List Request :=
  [.eraseSector 5, .programBuffer 4 [[0x12], [0x34, 0x56]], .read 4 3]

/-- The update, with a direct-memory request and a change of the trace in between. -/
def updateRun : List FlashEvent :=
  [.access (.write 5 [cmdBlockErase]) false, .setTrace true,
    .access (.write 5 [cmdBlockEraseAck]) true, .access (.write 4 [cmdWriteToBuffer]) false,
    .directMemory .read 0 8, .access (.write 4 [2]) false, .access (.write 4 [0x12]) false,
    .access (.write 5 [0x34, 0x56]) true, .access (.write 4 [cmdBlockEraseAck]) false,
    .access (.write 4 [cmdReadArray]) false, .setEnableDmi true, .access (.read 4 3) false]

theorem driver_on_cells_update :
    ∃ answers final, (start (smallConfig "" ⟨0, fun _ => 0⟩)).answers updateRun =
        some (answers, final) ∧
      answers.filterMap id = (serve (fun cells request => request.respond cells)
        (start (smallConfig "" ⟨0, fun _ => 0⟩)).chip.toCells updateRequests).1.flatten ∧
      final.chip.toCells = (serve (fun cells request => request.respond cells)
        (start (smallConfig "" ⟨0, fun _ => 0⟩)).chip.toCells updateRequests).2 ∧
      final.control.pending = .none :=
  @driver_on_cells (smallConfig "" ⟨0, fun _ => 0⟩) (by decide) []
    (fun _ member => absurd member List.not_mem_nil) [] _ rfl rfl updateRequests
    (by
      have size : (start (smallConfig "" ⟨0, fun _ => 0⟩)).chip.size = 16 := rfl
      rw [size]
      simp [updateRequests, Request.Fits, writeBufferMax])
    updateRun (by simp [updateRun, FlashEvent.LeavesCells]) (by decide)

end Flash

end QboxPlatform.StrataFlash
