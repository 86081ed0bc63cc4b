import QboxPlatform.Cc3xx.Sha256

/-!
# The hash of the LMS accelerator

`Sha256` of `rse_lms_accel.h`.  Its `transform` is, word for word, the one of the CC3XX core
without the copy into the registers.
-/

namespace QboxPlatform.RseLmsAccel

open Foundation
open Cc3xx (Sha256Words)

def storeBe32 (value : BitVec 32) : List Byte := (toBytes 4 value).reverse
def storeBe64 (value : BitVec 64) : List Byte := (toBytes 8 value).reverse

/-- `block` holds the `m_block_len` bytes of the partial block. -/
structure Sha256 where
  h : Sha256Words
  block : List Byte
  bytes : BitVec 64

namespace Sha256

def transform (h : Sha256Words) (block : List Byte) : Sha256Words := Cc3xx.sha256Compress h block

/-- The state that `reset` leaves. -/
def reset : Sha256 where
  h := .initial
  block := []
  bytes := 0

/-- The loop of `update`. -/
def fill (sha : Sha256) (data : List Byte) : Sha256 :=
  if data = [] then sha
  else if 64 ≤ sha.block.length then sha
  else
    let copyLen := min data.length (64 - sha.block.length)
    let block := sha.block ++ data.take copyLen
    if block.length = 64 then
      fill { sha with h := transform sha.h block, block := [] } (data.drop copyLen)
    else fill { sha with block := block } (data.drop copyLen)
termination_by data.length
decreasing_by
  all_goals
    have positive : 0 < data.length := List.length_pos_iff.mpr (by assumption)
    rw [List.length_drop]
    omega

def update (sha : Sha256) (data : List Byte) : Sha256 :=
  fill { sha with bytes := sha.bytes + BitVec.ofNat 64 data.length } data

def finish (sha : Sha256) : List Byte :=
  let padLen := if sha.block.length < 56 then 56 - sha.block.length else 120 - sha.block.length
  let padded := sha.update (0x80 :: List.replicate (padLen - 1) 0)
  (padded.update (storeBe64 (sha.bytes * 8))).h.toList.flatMap storeBe32

end Sha256

end QboxPlatform.RseLmsAccel
