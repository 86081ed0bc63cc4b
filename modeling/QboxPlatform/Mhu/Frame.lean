import QboxPlatform.Foundation.Bytes

/-!
# The register frame of an MHU-320AE

`mhu320ae_frame_model`: the doorbell channels of one frame, kept twice.  The
channel records are what 4-byte reads decode; the register image is what all
other accesses copy.  Every setter stores the touched channel into the image.
-/

namespace QboxPlatform.Mhu

open Foundation

def regSpaceSize : Nat := 0x30000
def ctrlBlkId : Nat := 0x000
def ctrlFeatSpt0 : Nat := 0x010
def ctrlFeatSpt1 : Nat := 0x014
def ctrlDbchCfg0 : Nat := 0x020
def ctrlDbchIntSt0 : Nat := 0x400
def ctrlIidr : Nat := 0xfc8
def ctrlAidr : Nat := 0xfcc
def dbcw0 : Nat := 0x1000
def dbcwStride : Nat := 0x20
def dbchChannels : Nat := 128
def dbcwEnd : Nat := dbcw0 + dbcwStride * dbchChannels
def dbcwSt : Nat := 0x00
def dbcwStMsk : Nat := 0x04
def dbcwClr : Nat := 0x08
def dbcwSet : Nat := 0x0c
def dbcwIntSt : Nat := 0x10
def dbcwIntClr : Nat := 0x14
def dbcwIntEn : Nat := 0x18
def dbcwCtrl : Nat := 0x1c
def mhuNotifyValue : BitVec 32 := 1234

attribute [simp] regSpaceSize ctrlBlkId ctrlFeatSpt0 ctrlFeatSpt1 ctrlDbchCfg0 ctrlDbchIntSt0
  ctrlIidr ctrlAidr dbcw0 dbcwStride dbchChannels dbcwEnd dbcwSt dbcwStMsk dbcwClr dbcwSet
  dbcwIntSt dbcwIntClr dbcwIntEn dbcwCtrl

/-- A channel count the frame can be configured with. -/
structure ChannelCount where
  count : Nat
  positive : 0 < count
  bounded : count ≤ dbchChannels

/-- `channel_count()`: the parameter, clamped to what the frame decodes. -/
def ChannelCount.clamp (requested : Nat) : ChannelCount where
  count := max 1 (min requested dbchChannels)
  positive := by omega
  bounded := max_le (by decide) (min_le_right _ _)

/-- The state of one doorbell channel: `m_db_status` and its sibling arrays. -/
structure Channel where
  status : BitVec 32 := 0
  mask : BitVec 32 := 0
  intStatus : BitVec 32 := 0
  intEnable : BitVec 32 := 0
  ctrl : BitVec 32 := 0
  deriving DecidableEq

structure Frame where
  regs : Image
  channels : Nat → Channel
  isMbx : Bool
  channelCount : ChannelCount

namespace Frame

/-- `store<uint32_t>`: a store past the end of the image is dropped. -/
def store32 (frame : Frame) (offset : Nat) (value : BitVec 32) : Frame :=
  if offset + 4 ≤ regSpaceSize then
    { frame with regs := frame.regs.store32 offset value }
  else
    frame

/-- `load<uint32_t>`: a load past the end of the image gives zero. -/
def load32 (frame : Frame) (offset : Nat) : BitVec 32 :=
  if offset + 4 ≤ regSpaceSize then frame.regs.load32 offset else 0

def copyRead (frame : Frame) (offset len : Nat) : List Byte :=
  frame.regs.read offset len

def copyWrite (frame : Frame) (offset : Nat) (data : List Byte) : Frame :=
  { frame with regs := frame.regs.write offset data }

/-- The channel and the register inside it that an offset addresses. -/
def decodeDbchOffset (frame : Frame) (offset : Nat) : Option (Nat × Nat) :=
  if offset < dbcw0 ∨ dbcwEnd ≤ offset then
    none
  else
    let relative := offset - dbcw0
    let channel := relative / dbcwStride
    if channel < frame.channelCount.count then
      some (channel, relative % dbcwStride)
    else
      none

theorem decodeDbchOffset_eq_some {frame : Frame} {address channel regOffset : Nat} :
    frame.decodeDbchOffset address = some (channel, regOffset) ↔
      address = dbcw0 + dbcwStride * channel + regOffset ∧ regOffset < dbcwStride ∧
        channel < frame.channelCount.count := by
  have bounded : frame.channelCount.count ≤ 128 := frame.channelCount.bounded
  have start : dbcw0 = 0x1000 := rfl
  have stride : dbcwStride = 0x20 := rfl
  have stop : dbcwEnd = 0x2000 := rfl
  unfold decodeDbchOffset
  dsimp only
  split_ifs with outside below
  · simp only [false_iff]
    rw [stride] at *
    omega
  · simp only [Option.some.injEq, Prod.mk.injEq]
    rw [stride] at *
    constructor
    · rintro ⟨rfl, rfl⟩
      omega
    · rintro ⟨rfl, small, decoded⟩
      omega
  · simp only [false_iff]
    rw [stride] at *
    omega

def status (frame : Frame) (channel : Nat) : BitVec 32 :=
  (frame.channels channel).status

def channelMaskedStatus (frame : Frame) (channel : Nat) : BitVec 32 :=
  (frame.channels channel).status &&& ~~~(frame.channels channel).mask

/-- Copy one channel record into the register image. -/
def storeChannelRegs (frame : Frame) (channel : Nat) : Frame :=
  let base := dbcw0 + dbcwStride * channel
  let regs := frame.channels channel
  let stored := frame.store32 (base + dbcwSt) regs.status
  let stored :=
    if frame.isMbx then
      (stored.store32 (base + dbcwStMsk) (frame.channelMaskedStatus channel)).store32
        (base + dbcwIntSt) regs.mask
    else
      (stored.store32 (base + dbcwIntSt) regs.intStatus).store32
        (base + dbcwIntEn) regs.intEnable
  stored.store32 (base + dbcwCtrl) regs.ctrl

/-- The common shape of the setters: change one channel record and copy it into
the image. -/
def updateChannel (frame : Frame) (channel : Nat) (change : Channel → Channel) : Frame :=
  storeChannelRegs
    { frame with
      channels := Function.update frame.channels channel (change (frame.channels channel)) }
    channel

def setStatus (frame : Frame) (channel : Nat) (value : BitVec 32) : Frame :=
  frame.updateChannel channel fun regs => { regs with status := value }

def setStatusBits (frame : Frame) (channel : Nat) (value : BitVec 32) : Frame :=
  frame.updateChannel channel fun regs => { regs with status := regs.status ||| value }

def clearStatusBits (frame : Frame) (channel : Nat) (mask : BitVec 32) : Frame :=
  frame.updateChannel channel fun regs => { regs with status := regs.status &&& ~~~mask }

def setMaskBits (frame : Frame) (channel : Nat) (mask : BitVec 32) : Frame :=
  frame.updateChannel channel fun regs => { regs with mask := regs.mask ||| mask }

def clearMaskBits (frame : Frame) (channel : Nat) (mask : BitVec 32) : Frame :=
  frame.updateChannel channel fun regs => { regs with mask := regs.mask &&& ~~~mask }

def setIntStatusBits (frame : Frame) (channel : Nat) (value : BitVec 32) : Frame :=
  frame.updateChannel channel fun regs => { regs with intStatus := regs.intStatus ||| value }

def clearIntStatusBits (frame : Frame) (channel : Nat) (mask : BitVec 32) : Frame :=
  frame.updateChannel channel fun regs => { regs with intStatus := regs.intStatus &&& ~~~mask }

def setIntEnable (frame : Frame) (channel : Nat) (value : BitVec 32) : Frame :=
  frame.updateChannel channel fun regs => { regs with intEnable := value }

def setCtrl (frame : Frame) (channel : Nat) (value : BitVec 32) : Frame :=
  frame.updateChannel channel fun regs => { regs with ctrl := value }

/-- Zero the status of every channel, the undecoded ones included. -/
def clearAllStatus (frame : Frame) : Frame :=
  (List.range dbchChannels).foldl (fun cleared channel => cleared.setStatus channel 0) frame

/-- Whether a channel asks for the frame's interrupt. -/
def asserted (frame : Frame) (channel : Nat) : Bool :=
  if frame.isMbx then
    frame.channelMaskedStatus channel != 0
  else
    (frame.channels channel).intStatus &&& (frame.channels channel).intEnable != 0

/-- One word of `CTRL_DBCH_INT_ST`: a bit for each asserted channel. -/
def combinedDbchIntSt (frame : Frame) (word : Nat) : BitVec 32 :=
  let first := word * 32
  let last := min (first + 32) frame.channelCount.count
  (List.range (last - first)).foldl
    (fun status position =>
      if frame.asserted (first + position) then status ||| 1#32 <<< position else status) 0

def refreshCombinedIrqRegs (frame : Frame) : Frame :=
  (List.range 4).foldl
    (fun refreshed word =>
      refreshed.store32 (ctrlDbchIntSt0 + word * 4) (refreshed.combinedDbchIntSt word)) frame

def anyCombinedIrq (frame : Frame) : Bool :=
  (List.range 4).any fun word => frame.combinedDbchIntSt word != 0

/-- The decoded registers of a channel; `none` for those only the image holds. -/
def channelRegister (frame : Frame) (channel regOffset : Nat) : Option (BitVec 32) :=
  let regs := frame.channels channel
  if frame.isMbx then
    if regOffset = dbcwSt then some regs.status
    else if regOffset = dbcwStMsk then some (frame.channelMaskedStatus channel)
    else if regOffset = dbcwIntSt then some regs.mask
    else if regOffset = dbcwCtrl then some regs.ctrl
    else none
  else
    if regOffset = dbcwSt then some regs.status
    else if regOffset = dbcwIntSt then some regs.intStatus
    else if regOffset = dbcwIntEn then some regs.intEnable
    else if regOffset = dbcwCtrl then some regs.ctrl
    else none

/-- Whether a 4-byte read of the offset is served by `combined_dbch_int_st`. -/
def isCombinedOffset (offset : Nat) : Bool :=
  ctrlDbchIntSt0 ≤ offset && offset < ctrlDbchIntSt0 + 16 && (offset - ctrlDbchIntSt0) % 4 == 0

theorem isCombinedOffset_iff {offset : Nat} :
    isCombinedOffset offset = true ↔
      ctrlDbchIntSt0 ≤ offset ∧ offset < ctrlDbchIntSt0 + 16 ∧
        (offset - ctrlDbchIntSt0) % 4 = 0 := by
  rw [isCombinedOffset, Bool.and_eq_true, Bool.and_eq_true, decide_eq_true_eq,
    decide_eq_true_eq, beq_iff_eq, and_assoc]

def read32 (frame : Frame) (offset : Nat) : BitVec 32 :=
  if isCombinedOffset offset then
    frame.combinedDbchIntSt ((offset - ctrlDbchIntSt0) / 4)
  else
    match frame.decodeDbchOffset offset with
    | none => frame.load32 offset
    | some (channel, regOffset) =>
        (frame.channelRegister channel regOffset).getD (frame.load32 offset)

/-- The frame before elaboration: all arrays zero. -/
def blank (isMbx : Bool) (channelCount : ChannelCount) : Frame where
  regs := fun _ => 0
  channels := fun _ => {}
  isMbx := isMbx
  channelCount := channelCount

/-- `configure`: mailbox channels start masked, and the image gets the
identification words and every channel. -/
def configure (isMbx : Bool) (channelCount : ChannelCount)
    (featSpt0 featSpt1 iidr aidr : BitVec 32) : Frame :=
  let initial := blank isMbx channelCount
  let masked :=
    { initial with channels := fun _ => { mask := if isMbx then 0xffffffff else 0 } }
  let identified :=
    (((((masked.store32 ctrlBlkId (if isMbx then 1 else 0)).store32
      ctrlFeatSpt0 featSpt0).store32 ctrlFeatSpt1 featSpt1).store32
      ctrlDbchCfg0 (BitVec.ofNat 32 (channelCount.count - 1))).store32
      ctrlIidr iidr).store32 ctrlAidr aidr
  ((List.range dbchChannels).foldl storeChannelRegs identified).refreshCombinedIrqRegs

/-! ### What the operations leave alone -/

@[simp]
theorem store32_channels (frame : Frame) (offset : Nat) (value : BitVec 32) :
    (frame.store32 offset value).channels = frame.channels := by
  unfold store32
  split <;> rfl

@[simp]
theorem store32_isMbx (frame : Frame) (offset : Nat) (value : BitVec 32) :
    (frame.store32 offset value).isMbx = frame.isMbx := by
  unfold store32
  split <;> rfl

@[simp]
theorem store32_channelCount (frame : Frame) (offset : Nat) (value : BitVec 32) :
    (frame.store32 offset value).channelCount = frame.channelCount := by
  unfold store32
  split <;> rfl

@[simp]
theorem storeChannelRegs_channels (frame : Frame) (channel : Nat) :
    (frame.storeChannelRegs channel).channels = frame.channels := by
  unfold storeChannelRegs
  cases frame.isMbx <;> simp

@[simp]
theorem storeChannelRegs_isMbx (frame : Frame) (channel : Nat) :
    (frame.storeChannelRegs channel).isMbx = frame.isMbx := by
  unfold storeChannelRegs
  cases kind : frame.isMbx <;> simp [kind]

@[simp]
theorem storeChannelRegs_channelCount (frame : Frame) (channel : Nat) :
    (frame.storeChannelRegs channel).channelCount = frame.channelCount := by
  unfold storeChannelRegs
  cases frame.isMbx <;> simp

@[simp]
theorem updateChannel_channels (frame : Frame) (channel : Nat) (change : Channel → Channel) :
    (frame.updateChannel channel change).channels =
      Function.update frame.channels channel (change (frame.channels channel)) := by
  simp [updateChannel]

@[simp]
theorem updateChannel_isMbx (frame : Frame) (channel : Nat) (change : Channel → Channel) :
    (frame.updateChannel channel change).isMbx = frame.isMbx := by
  simp [updateChannel]

@[simp]
theorem updateChannel_channelCount (frame : Frame) (channel : Nat)
    (change : Channel → Channel) :
    (frame.updateChannel channel change).channelCount = frame.channelCount := by
  simp [updateChannel]

theorem status_updateChannel (frame : Frame) (channel other : Nat)
    (change : Channel → Channel) :
    (frame.updateChannel channel change).status other =
      if other = channel then (change (frame.channels channel)).status
      else frame.status other := by
  rw [status, status, updateChannel_channels]
  by_cases same : other = channel
  · rw [same, Function.update_self, if_pos rfl]
  · rw [Function.update_of_ne same, if_neg same]

/-- A fold whose steps leave some view of the state alone leaves it alone. -/
theorem foldl_keeps {State Item View : Type*} (view : State → View)
    {step : State → Item → State} (keeps : ∀ state item, view (step state item) = view state)
    (items : List Item) (state : State) : view (items.foldl step state) = view state := by
  induction items generalizing state with
  | nil => rfl
  | cons item rest inductionHypothesis =>
      rw [List.foldl_cons, inductionHypothesis, keeps]

@[simp]
theorem refreshCombinedIrqRegs_channels (frame : Frame) :
    frame.refreshCombinedIrqRegs.channels = frame.channels :=
  foldl_keeps Frame.channels (fun _ _ => store32_channels _ _ _) _ _

@[simp]
theorem refreshCombinedIrqRegs_isMbx (frame : Frame) :
    frame.refreshCombinedIrqRegs.isMbx = frame.isMbx :=
  foldl_keeps Frame.isMbx (fun _ _ => store32_isMbx _ _ _) _ _

@[simp]
theorem refreshCombinedIrqRegs_channelCount (frame : Frame) :
    frame.refreshCombinedIrqRegs.channelCount = frame.channelCount :=
  foldl_keeps Frame.channelCount (fun _ _ => store32_channelCount _ _ _) _ _

@[simp]
theorem clearAllStatus_channelCount (frame : Frame) :
    frame.clearAllStatus.channelCount = frame.channelCount :=
  foldl_keeps Frame.channelCount (fun _ _ => updateChannel_channelCount _ _ _) _ _

section Configure

variable (isMbx : Bool) (channelCount : ChannelCount) (featSpt0 featSpt1 iidr aidr : BitVec 32)

@[simp]
theorem configure_channels :
    (configure isMbx channelCount featSpt0 featSpt1 iidr aidr).channels =
      fun _ => { mask := if isMbx then 0xffffffff else 0 } := by
  rw [configure, refreshCombinedIrqRegs_channels,
    foldl_keeps Frame.channels storeChannelRegs_channels]
  simp

@[simp]
theorem configure_isMbx :
    (configure isMbx channelCount featSpt0 featSpt1 iidr aidr).isMbx = isMbx := by
  rw [configure, refreshCombinedIrqRegs_isMbx, foldl_keeps Frame.isMbx storeChannelRegs_isMbx]
  simp [blank]

@[simp]
theorem configure_channelCount :
    (configure isMbx channelCount featSpt0 featSpt1 iidr aidr).channelCount = channelCount := by
  rw [configure, refreshCombinedIrqRegs_channelCount,
    foldl_keeps Frame.channelCount storeChannelRegs_channelCount]
  simp [blank]

end Configure

end Frame

end QboxPlatform.Mhu
