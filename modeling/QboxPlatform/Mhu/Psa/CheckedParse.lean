import QboxPlatform.Foundation.Checked
import QboxPlatform.Mhu.Psa.Request

/-!
# The parser with its subscripts checked

The same functions, with every subscript of the request, every range that is cut out of it and
every subscript of the arrays of `PSA_MAX_IOVEC` entries checked: `none` is a read or a store
outside.
-/

namespace QboxPlatform.Mhu.Psa

open Foundation

universe u

/-- An entry of an array of `PSA_MAX_IOVEC` entries. -/
def checkedEntry {Item : Type u} (table : Nat → Item) (index : Nat) : Option Item :=
  if index < psaMaxIovec then some (table index) else none

def checkedUpdate {Item : Type u} (table : Nat → Item) (index : Nat) (item : Item) :
    Option (Nat → Item) :=
  if index < psaMaxIovec then some (Function.update table index item) else none

/-- `read_le16`, `read_le32` and `read_le64`. -/
def checkedReadLe (width : Nat) (input : List Byte) (offset : Nat) : Option (BitVec width) :=
  if input.length < offset + width / 8 then some 0
  else ((List.range (width / 8)).mapM fun index => input[offset + index]?).map (ofBytes width)

/-- The loop that fills a table of `PSA_MAX_IOVEC` entries. -/
def checkedTable {Item : Type u} (read : Nat → Option Item) (default : Item) :
    Option (Nat → Item) :=
  (List.range psaMaxIovec).foldlM
    (fun table index => (read index).bind (checkedUpdate table index)) fun _ => default

def checkedHeader (out : RsePsRequest) (request : List Byte) : Option RsePsRequest := do
  let handle ← checkedReadLe 32 request 4
  let ctrl ← checkedReadLe 32 request 8
  return { out with
    handle := handle
    ctrl := ctrl
    type := rseCtrlType ctrl
    inLen := rseCtrlInLen ctrl
    outLen := rseCtrlOutLen ctrl }

/-- The loop over the inputs of an embedded request; `some none` refuses the request. -/
def checkedTakeInputs (request : List Byte) (ioSizes : Nat → BitVec 32) :
    (remaining index offset : Nat) → (Nat → List Byte) → Option (Option (Nat → List Byte))
  | 0, _, _, inputs => some (some inputs)
  | remaining + 1, index, offset, inputs => do
      let size ← checkedEntry ioSizes index
      if request.length < offset + size.toNat then
        return none
      else
        checkedRange offset (offset + size.toNat) request.length
        let inputs ← checkedUpdate inputs index ((request.drop offset).take size.toNat)
        checkedTakeInputs request ioSizes remaining (index + 1) (offset + size.toNat) inputs

/-- The loop over the outputs, of the capacities or of the pointers. -/
def checkedOutputs {Item : Type u} (source : Nat → Item) (inLen outLen : Nat)
    (table : Nat → Item) : Option (Nat → Item) :=
  (List.range outLen).foldlM
    (fun table index => (checkedEntry source (inLen + index)).bind (checkedUpdate table index))
    table

def checkedEmbedRequest (request : List Byte) (out : RsePsRequest) :
    Option (Except PsaStatus RsePsRequest) :=
  if request.length < 4 + 4 * 2 + 2 * psaMaxIovec then
    some (.error .invalidArgument)
  else do
    let out ← checkedHeader out request
    if ¬ out.CountsFit then
      return .error .invalidArgument
    else
      let ioSizes ← checkedTable
        (fun index => (checkedReadLe 16 request (12 + 2 * index)).map (·.setWidth 32)) 0
      match ← checkedTakeInputs request ioSizes out.inLen 0 20 out.inputs with
      | none => return .error .invalidArgument
      | some inputs =>
          let outCaps ← checkedOutputs ioSizes out.inLen out.outLen out.outCaps
          return .ok { out with inputs := inputs, outCaps := outCaps }

section PointerAccess

variable {Memory : Type u}

/-- The loop over the inputs of a pointer-access request. -/
def checkedFetchInputs (bus : Bus Memory) (ioSizes : Nat → BitVec 32)
    (hostPtrs : Nat → BitVec 64) :
    (remaining index : Nat) → (Nat → List Byte) → Memory →
      Option (Option (Nat → List Byte) × Memory)
  | 0, _, inputs, memory => some (some inputs, memory)
  | remaining + 1, index, inputs, memory =>
      (checkedEntry ioSizes index).bind fun size =>
      (checkedEntry hostPtrs index).bind fun pointer =>
      match memReadBytes bus memory pointer size.toNat with
      | (false, _, memory) => some (none, memory)
      | (true, data, memory) =>
          (checkedUpdate inputs index data).bind fun inputs =>
          checkedFetchInputs bus ioSizes hostPtrs remaining (index + 1) inputs memory

def checkedPointerRequest (bus : Bus Memory) (request : List Byte) (out : RsePsRequest)
    (memory : Memory) : Option (Except PsaStatus RsePsRequest × Memory) :=
  if request.length < 4 + 4 * 2 + 4 * psaMaxIovec + 8 * psaMaxIovec then
    some (.error .invalidArgument, memory)
  else
    (checkedHeader out request).bind fun out =>
    if ¬ out.CountsFit then
      some (.error .invalidArgument, memory)
    else
      (checkedTable (fun index => checkedReadLe 32 request (12 + 4 * index)) 0).bind fun ioSizes =>
      (checkedTable (fun index => checkedReadLe 64 request (28 + 8 * index)) 0).bind fun hostPtrs =>
      (checkedFetchInputs bus ioSizes hostPtrs out.inLen 0 out.inputs memory).bind fun fetched =>
      match fetched with
      | (none, memory) => some (.error .communicationFailure, memory)
      | (some inputs, memory) =>
          (checkedOutputs ioSizes out.inLen out.outLen out.outCaps).bind fun outCaps =>
          (checkedOutputs hostPtrs out.inLen out.outLen out.outPtrs).bind fun outPtrs =>
          some (.ok { out with inputs := inputs, outCaps := outCaps, outPtrs := outPtrs }, memory)

def checkedRequest (bus : Bus Memory) (request : List Byte) (memory : Memory) :
    Option (Except PsaStatus RsePsRequest × Memory) :=
  if request.length < 4 then
    some (.error .invalidArgument, memory)
  else
    request[0]?.bind fun (protocol : Byte) =>
    request[1]?.bind fun (seq : Byte) =>
    request[2]?.bind fun (low : Byte) =>
    request[3]?.bind fun (high : Byte) =>
    let out : RsePsRequest :=
      { protocol := protocol
        seq := seq
        clientId := low.setWidth 16 ||| (high.setWidth 16 <<< 8) }
    if out.protocol = rseCommsProtocolEmbed then
      (checkedEmbedRequest request out).bind fun parsed => some (parsed, memory)
    else if out.protocol = rseCommsProtocolPointerAccess then
      checkedPointerRequest bus request out memory
    else
      some (.error .notSupported, memory)

end PointerAccess

/-! ### Every subscript is inside -/

theorem checkedReadLe_eq (width : Nat) (input : List Byte) (offset : Nat) :
    checkedReadLe width input offset = some (readLe width input offset) := by
  unfold checkedReadLe readLe
  split
  · rfl
  · rename_i enough
    have bytes : (List.range (width / 8)).mapM (fun index => input[offset + index]?) =
        some ((input.drop offset).take (width / 8)) := by
      have each : (List.range (width / 8)).mapM (fun index => input[offset + index]?) =
          some ((List.range (width / 8)).map fun index => input.getD (offset + index) 0) := by
        apply mapM_eq_map
        intro index member
        have inside : offset + index < input.length := by
          have small := List.mem_range.mp member
          omega
        rw [List.getElem?_eq_getElem inside, List.getD_eq_getElem _ _ inside]
      rw [each]
      congr 1
      apply List.ext_getElem
      · simp
        omega
      · intro index left right
        have inside : offset + index < input.length := by
          rw [List.length_take, List.length_drop] at right
          omega
        rw [List.getElem_map, List.getElem_range, List.getElem_take, List.getElem_drop,
          List.getD_eq_getElem _ _ inside]
    rw [bytes]
    rfl

theorem checkedHeader_eq (out : RsePsRequest) (request : List Byte) :
    checkedHeader out request = some (out.withHeader request) := by
  unfold checkedHeader
  rw [checkedReadLe_eq, checkedReadLe_eq]
  rfl

/-- Filling positions inside the array, each from what is read for it. -/
theorem foldlM_checkedUpdate {Item : Type u} {read : Nat → Option Item} {value : Nat → Item}
    (count : Nat) (allowed : ∀ index < count, read index = some (value index))
    (inside : count ≤ psaMaxIovec) (table : Nat → Item) :
    (List.range count).foldlM
        (fun table index => (read index).bind (checkedUpdate table index)) table =
      some fun index => if index < count then value index else table index := by
  induction count with
  | zero => simp
  | succ count inductionHypothesis =>
      have before := inductionHypothesis (fun index below => allowed index (by omega)) (by omega)
      rw [List.range_succ, List.foldlM_append, before]
      simp only [List.foldlM_cons, List.foldlM_nil, Option.bind_eq_bind, Option.bind_some,
        allowed count (Nat.lt_succ_self _), checkedUpdate]
      rw [if_pos (by omega)]
      simp only [Option.bind_some]
      congr 1
      funext index
      by_cases here : index = count
      · subst here
        simp
      · rw [Function.update_of_ne here]
        by_cases below : index < count
        · rw [if_pos below, if_pos (by omega)]
        · rw [if_neg below, if_neg (by omega)]

/-- A table that is filled whole; the entries past its end are never asked for. -/
def whole {Item : Type u} (value : Nat → Item) (default : Item) (index : Nat) : Item :=
  if index < psaMaxIovec then value index else default

theorem checkedTable_eq {Item : Type u} {read : Nat → Option Item} {value : Nat → Item}
    (allowed : ∀ index, read index = some (value index)) (default : Item) :
    checkedTable read default = some (whole value default) :=
  foldlM_checkedUpdate psaMaxIovec (fun index _ => allowed index) (Nat.le_refl _) _

theorem checkedEntry_whole {Item : Type u} (value : Nat → Item) (default : Item) {index : Nat}
    (inside : index < psaMaxIovec) :
    checkedEntry (whole value default) index = some (value index) := by
  rw [checkedEntry, if_pos inside, whole, if_pos inside]

theorem checkedOutputs_eq {Item : Type u} (value : Nat → Item) (default : Item)
    {inLen outLen : Nat} (fits : inLen + outLen ≤ psaMaxIovec) (table : Nat → Item) :
    checkedOutputs (whole value default) inLen outLen table =
      some fun index => if index < outLen then value (inLen + index) else table index := by
  apply foldlM_checkedUpdate
  · exact fun index below => checkedEntry_whole value default (by omega)
  · omega

theorem checkedTakeInputs_eq (request : List Byte) (sizes : Nat → BitVec 32)
    (default : BitVec 32) (remaining index offset : Nat) (inputs : Nat → List Byte)
    (inside : index + remaining ≤ psaMaxIovec) :
    checkedTakeInputs request (whole sizes default) remaining index offset inputs =
      some (takeEmbeddedInputs request sizes remaining index offset inputs) := by
  induction remaining generalizing index offset inputs with
  | zero => rfl
  | succ remaining inductionHypothesis =>
      have here : index < psaMaxIovec := by omega
      rw [checkedTakeInputs, checkedEntry_whole sizes default here, takeEmbeddedInputs]
      simp only [Option.bind_eq_bind, Option.bind_some]
      split
      · rfl
      · rw [checkedRange_eq (Nat.le_add_right _ _) (by omega), checkedUpdate, if_pos here]
        simp only [Option.bind_some]
        exact inductionHypothesis (index + 1) _ _ (by omega)

theorem checkedEmbedRequest_eq (request : List Byte) (out : RsePsRequest) :
    checkedEmbedRequest request out = some (parseRsePsEmbedRequest request out) := by
  unfold checkedEmbedRequest parseRsePsEmbedRequest
  dsimp only
  rw [checkedHeader_eq]
  by_cases short : request.length < 4 + 4 * 2 + 2 * psaMaxIovec
  · rw [if_pos short, if_pos short]
  rw [if_neg short, if_neg short]
  simp only [Option.bind_eq_bind, Option.bind_some]
  by_cases counts : ¬ (out.withHeader request).CountsFit
  · rw [if_pos counts, if_pos counts]
    rfl
  · rw [if_neg counts, if_neg counts]
    have fits := (not_not.mp counts).2.2
    have sizes (index : Nat) :
        (checkedReadLe 16 request (12 + 2 * index)).map (·.setWidth 32) =
          some (embedIoSizes request index) := by
      rw [checkedReadLe_eq]
      rfl
    rw [checkedTable_eq sizes, Option.bind_some,
      checkedTakeInputs_eq _ _ _ _ _ _ _ (by omega), Option.bind_some]
    cases takeEmbeddedInputs request (embedIoSizes request) (out.withHeader request).inLen 0 20
        (out.withHeader request).inputs with
    | none => rfl
    | some inputs =>
        dsimp only
        rw [checkedOutputs_eq _ _ fits, Option.bind_some]
        simp only [RsePsRequest.withVectors, ite_self]
        rfl

section PointerAccess

variable {Memory : Type u}

theorem checkedFetchInputs_eq (bus : Bus Memory) (sizes : Nat → BitVec 32)
    (pointers : Nat → BitVec 64) (size : BitVec 32) (pointer : BitVec 64)
    (remaining index : Nat) (inputs : Nat → List Byte) (memory : Memory)
    (inside : index + remaining ≤ psaMaxIovec) :
    checkedFetchInputs bus (whole sizes size) (whole pointers pointer) remaining index inputs
        memory =
      some (fetchInputs bus sizes pointers remaining index inputs memory) := by
  induction remaining generalizing index inputs memory with
  | zero => rfl
  | succ remaining inductionHypothesis =>
      have here : index < psaMaxIovec := by omega
      rw [checkedFetchInputs, checkedEntry_whole sizes size here, Option.bind_some,
        checkedEntry_whole pointers pointer here, Option.bind_some, fetchInputs]
      obtain ⟨ok, data, next⟩ := memReadBytes bus memory (pointers index) (sizes index).toNat
      cases ok with
      | false => rfl
      | true =>
          dsimp only
          rw [checkedUpdate, if_pos here, Option.bind_some]
          exact inductionHypothesis (index + 1) _ next (by omega)

theorem checkedPointerRequest_eq (bus : Bus Memory) (request : List Byte) (out : RsePsRequest)
    (memory : Memory) :
    checkedPointerRequest bus request out memory =
      some (parseRsePsPointerRequest bus request out memory) := by
  unfold checkedPointerRequest parseRsePsPointerRequest
  dsimp only
  rw [checkedHeader_eq, Option.bind_some]
  by_cases short : request.length < 4 + 4 * 2 + 4 * psaMaxIovec + 8 * psaMaxIovec
  · rw [if_pos short, if_pos short]
  rw [if_neg short, if_neg short]
  by_cases counts : ¬ (out.withHeader request).CountsFit
  · rw [if_pos counts, if_pos counts]
  · rw [if_neg counts, if_neg counts]
    have fits := (not_not.mp counts).2.2
    have sizes (index : Nat) : checkedReadLe 32 request (12 + 4 * index) =
        some (pointerIoSizes request index) := checkedReadLe_eq ..
    have pointers (index : Nat) : checkedReadLe 64 request (28 + 8 * index) =
        some (pointerHostPtrs request index) := checkedReadLe_eq ..
    rw [checkedTable_eq sizes, Option.bind_some, checkedTable_eq pointers, Option.bind_some,
      checkedFetchInputs_eq _ _ _ _ _ _ _ _ _ (by omega), Option.bind_some]
    obtain ⟨inputs, next⟩ := fetchInputs bus (pointerIoSizes request) (pointerHostPtrs request)
      (out.withHeader request).inLen 0 (out.withHeader request).inputs memory
    cases inputs with
    | none => rfl
    | some inputs =>
        dsimp only
        rw [checkedOutputs_eq _ _ fits, Option.bind_some, checkedOutputs_eq _ _ fits,
          Option.bind_some]
        rfl

/-- Every byte string is parsed without a read or a store outside. -/
theorem checkedRequest_eq (bus : Bus Memory) (request : List Byte) (memory : Memory) :
    checkedRequest bus request memory = some (parseRsePsRequest bus request memory) := by
  unfold checkedRequest parseRsePsRequest
  split_ifs with short
  · rfl
  · have byte {index : Nat} (inside : index < 4) :
        request[index]? = some (request.getD index 0) := by
      rw [List.getElem?_eq_getElem (by omega), List.getD_eq_getElem _ _ (by omega)]
    rw [byte (by decide), byte (by decide), byte (by decide), byte (by decide)]
    simp only [Option.bind_some, checkedEmbedRequest_eq, checkedPointerRequest_eq]
    unfold requestHeader
    dsimp only
    split_ifs <;> rfl

end PointerAccess

end QboxPlatform.Mhu.Psa
