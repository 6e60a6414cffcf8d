import MyMouse.Crc
import MyMouse.SpiBytes
import MyMouse.UsbDescriptor

namespace MyMouse

open Crc

/-- The loop of `avr_transceive` over what it has received, whose counter has eight bits, cut off
after `fuel` turns. -/
def crcLoop (rxBuf : List (BitVec 8)) : Nat → BitVec 8 → BitVec 8 → Option (BitVec 8 × BitVec 8)
  | 0, _, _ => none
  | fuel + 1, i, crc =>
    if i.toNat < rxBuf.length - 1 then
      crcLoop rxBuf fuel (i + 1#8) (updateCrc crc (rxBuf.getD i.toNat 0#8))
    else some (i, crc)

/-- The result of `avr_transceive` once both transfers are over. -/
def avrTransceiveCheck (fuel : Nat) (rxBuf : List (BitVec 8)) : Option Int :=
  if rxBuf = [] then some 0
  else match crcLoop rxBuf fuel 0#8 0#8 with
    | some (i, crc) => if crc ≠ rxBuf.getD i.toNat 0#8 then some (- EIO) else some 0
    | none => none

/-- What `get_next_tx_byte` keeps of a response. -/
structure TxState where
  txIdx : Nat
  txCrc : BitVec 8

/-- The bytes behind the pointers a command may set. -/
def pointee : TxData → List (BitVec 8)
  | .null => []
  | .deviceIdResponse => deviceIdResponse.drop 1

section Sender

variable (libs : AvrLibs)

/-- `get_next_tx_byte` on any response. -/
def getNextTxByteOf (txData : List (BitVec 8)) (numTx : Nat) (s : TxState) : BitVec 8 × TxState :=
  if s.txIdx < numTx then
    let nextByte := txData.getD s.txIdx 0#8
    (nextByte, ⟨s.txIdx + 1, libs.crcIbuttonUpdate s.txCrc nextByte⟩)
  else (s.txCrc, s)

/-- What `n` successive calls return. -/
def txBytes (txData : List (BitVec 8)) (numTx : Nat) : Nat → TxState → List (BitVec 8)
  | 0, _ => []
  | n + 1, s =>
    let (txByte, s) := getNextTxByteOf libs txData numTx s
    txByte :: txBytes txData numTx n s

/-- The first `n + 1` bytes of a response: `first` and what `spi_task` fetches after it. -/
def txStream (first : BitVec 8) (txData : List (BitVec 8)) (n : Nat) : List (BitVec 8) :=
  first :: txBytes libs txData txData.length n ⟨0, libs.crcIbuttonUpdate 0#8 first⟩

theorem getNextTxByte_of (avr : Avr) :
    getNextTxByte libs avr =
      ((getNextTxByteOf libs (pointee avr.txData) avr.numTx ⟨avr.txIdx, avr.txCrc⟩).1,
        { avr with
          txIdx :=
            (getNextTxByteOf libs (pointee avr.txData) avr.numTx ⟨avr.txIdx, avr.txCrc⟩).2.txIdx
          txCrc :=
            (getNextTxByteOf libs (pointee avr.txData) avr.numTx ⟨avr.txIdx, avr.txCrc⟩).2.txCrc }) := by
  obtain ⟨_, _, _, _, _, _, txIdx, _, txData, _, _, _⟩ := avr
  have hbyte : (pointee .deviceIdResponse).getD txIdx 0#8 =
      deviceIdResponse.getD (txIdx + 1) 0#8 := by
    simp [pointee]
  unfold getNextTxByte getNextTxByteOf
  split
  next =>
    cases txData with
    | null => rfl
    | deviceIdResponse => simp only [hbyte]
  next => rfl

/-- The AVR sends what it fetches, whatever it receives meanwhile. -/
theorem transceiveBytes_tx (data : List (BitVec 8)) (avr : Avr) :
    (transceiveBytes libs data avr).1 =
      txBytes libs (pointee avr.txData) avr.numTx data.length ⟨avr.txIdx, avr.txCrc⟩ := by
  induction data generalizing avr with
  | nil => rfl
  | cons value rest ih =>
    obtain ⟨snumTx, stxData, stxIdx, stxCrc⟩ :=
      storeRxByte_tx libs value (getNextTxByte libs avr).2
    have hrest := ih (storeRxByte libs value (getNextTxByte libs avr).2)
    rw [snumTx, stxData, stxIdx, stxCrc, getNextTxByte_of] at hrest
    simp only [transceiveBytes, List.length_cons, txBytes]
    rw [getNextTxByte_of]
    exact congrArg _ hrest

theorem txBytes_take (txData : List (BitVec 8)) (numTx n : Nat) (s : TxState) :
    (txBytes libs txData numTx (n + 1) s).take n = txBytes libs txData numTx n s := by
  induction n generalizing s with
  | zero => rfl
  | succ n ih =>
    rw [txBytes, List.take_succ_cons, ih]
    rfl

/-- The answer of `spi_task` to the device id command is the response of that command. -/
theorem spiCommand_deviceId {avr : Avr} (idle : avr.Idle) (n : Nat) {data : List (BitVec 8)}
    (hdata : data.length = n + 1) (fetchedMore : Bool) :
    (spiCommand libs 0x06#8 data fetchedMore avr).1 =
      txStream libs 0x1E#8 (pointee .deviceIdResponse) n := by
  have hbytes := transceiveBytes_tx libs data { avr with
    txData := .deviceIdResponse
    numTx := deviceIdResponse.length - 1
    txCrc := libs.crcIbuttonUpdate 0#8 0x1E#8 }
  have hstart : (spiCommand libs 0x06#8 data fetchedMore avr).1 =
      ((0x1E#8 : BitVec 8) :: (transceiveBytes libs data { avr with
        txData := .deviceIdResponse
        numTx := deviceIdResponse.length - 1
        txCrc := libs.crcIbuttonUpdate 0#8 0x1E#8 }).1).take data.length := rfl
  rw [hstart, hbytes, hdata, List.take_succ_cons, txBytes_take, idle.txIdx]
  rfl

end Sender

section Receiver

variable {libs : AvrLibs}

theorem updateCrc_eq_feed : updateCrc = feed 0x8C#8 := rfl

/-- The remainders the sender has after each byte are those of the receiver. -/
theorem txBytes_payload (hcrc : libs.crcIbuttonUpdate = updateCrc) (txData : List (BitVec 8))
    (k n : Nat) (hk : k + n = txData.length) (crc : BitVec 8) :
    txBytes libs txData txData.length (n + 1) ⟨k, crc⟩ =
      txData.drop k ++ [(txData.drop k).foldl updateCrc crc] := by
  induction n generalizing k crc with
  | zero =>
    have hend : getNextTxByteOf libs txData txData.length ⟨k, crc⟩ = (crc, ⟨k, crc⟩) :=
      if_neg (by simp only; omega)
    rw [List.drop_of_length_le (by omega)]
    simp [txBytes, hend]
  | succ n ih =>
    have hlt : k < txData.length := by omega
    have hnext : getNextTxByteOf libs txData txData.length ⟨k, crc⟩ =
        (txData[k], ⟨k + 1, updateCrc crc txData[k]⟩) := by
      unfold getNextTxByteOf
      rw [if_pos hlt, List.getD_eq_getElem _ _ hlt, hcrc]
    have hrest := ih (k + 1) (by omega) (updateCrc crc txData[k])
    rw [txBytes, hnext]
    simp only
    rw [hrest, List.drop_eq_getElem_cons hlt]
    rfl

/-- A whole response: the payload and its CRC. -/
theorem txStream_eq (hcrc : libs.crcIbuttonUpdate = updateCrc) (first : BitVec 8)
    (further : List (BitVec 8)) :
    txStream libs first further (further.length + 1) =
      (first :: further) ++ [(first :: further).foldl updateCrc 0#8] := by
  have hbytes := txBytes_payload hcrc further 0 further.length (by omega) (updateCrc 0#8 first)
  rw [txStream, hcrc, hbytes]
  rfl

/-- The loop goes over all bytes but the last while it can count them. -/
theorem crcLoop_eq {payload : List (BitVec 8)} (last : BitVec 8) (hlen : payload.length ≤ 255)
    (n fuel : Nat) (i crc : BitVec 8) (hi : i.toNat + n = payload.length) (hfuel : n < fuel) :
    crcLoop (payload ++ [last]) fuel i crc =
      some (BitVec.ofNat 8 payload.length, (payload.drop i.toNat).foldl updateCrc crc) := by
  induction n generalizing fuel i crc with
  | zero =>
    obtain ⟨fuel, rfl⟩ : ∃ m, fuel = m + 1 := ⟨fuel - 1, by omega⟩
    have hend : i = BitVec.ofNat 8 payload.length := by
      apply BitVec.eq_of_toNat_eq
      rw [BitVec.toNat_ofNat]
      omega
    rw [crcLoop, if_neg (by simp; omega), List.drop_of_length_le (by omega), hend]
    rfl
  | succ n ih =>
    obtain ⟨fuel, rfl⟩ : ∃ m, fuel = m + 1 := ⟨fuel - 1, by omega⟩
    have hlt : i.toNat < payload.length := by omega
    have hnext : (i + 1#8).toNat = i.toNat + 1 := by
      rw [BitVec.toNat_add]
      simp only [BitVec.toNat_ofNat]
      omega
    have hbyte : (payload ++ [last]).getD i.toNat 0#8 = payload[i.toNat] := by
      rw [List.getD_eq_getElem _ _ (by simp; omega), List.getElem_append_left hlt]
    rw [crcLoop, if_pos (by simp; omega), hbyte,
      ih fuel (i + 1#8) (updateCrc crc payload[i.toNat]) (by omega) (by omega), hnext,
      List.drop_eq_getElem_cons hlt]
    rfl

theorem avrTransceiveCheck_eq {fuel : Nat} {payload : List (BitVec 8)} (last : BitVec 8)
    (hlen : payload.length ≤ 255) (hfuel : payload.length < fuel) :
    avrTransceiveCheck fuel (payload ++ [last]) =
      some (if payload.foldl updateCrc 0#8 = last then 0 else - EIO) := by
  have hloop := crcLoop_eq last hlen payload.length fuel 0#8 0#8 (by simp) hfuel
  have hlast : (payload ++ [last]).getD (BitVec.ofNat 8 payload.length).toNat 0#8 = last := by
    rw [BitVec.toNat_ofNat, Nat.mod_eq_of_lt (by omega), List.getD_eq_getElem _ _ (by simp)]
    simp
  have hwhole : payload.drop (0#8).toNat = payload := rfl
  rw [hwhole] at hloop
  unfold avrTransceiveCheck
  rw [if_neg (by simp), hloop]
  simp only [hlast]
  by_cases hcrc : payload.foldl updateCrc 0#8 = last
  · rw [if_neg (not_not.mpr hcrc), if_pos hcrc]
  · rw [if_pos hcrc, if_neg hcrc]

theorem exists_last {rxBuf : List (BitVec 8)} (hne : rxBuf ≠ []) :
    ∃ payload last, rxBuf = payload ++ [last] :=
  ⟨rxBuf.dropLast, rxBuf.getLast hne, (List.dropLast_append_getLast hne).symm⟩

/-- The loop takes what the check of the model of avr_comm.c takes. -/
theorem avrTransceiveCheck_crcValid {fuel : Nat} {rxBuf : List (BitVec 8)} (hne : rxBuf ≠ [])
    (hlen : rxBuf.length ≤ 256) (hfuel : rxBuf.length ≤ fuel) :
    avrTransceiveCheck fuel rxBuf = some (if crcValid rxBuf then 0 else - EIO) := by
  obtain ⟨payload, last, rfl⟩ := exists_last hne
  rw [List.length_append, List.length_singleton] at hlen hfuel
  have hvalid : crcValid (payload ++ [last]) = true ↔ payload.foldl updateCrc 0#8 = last := by
    rw [crcValid, List.dropLast_concat, List.getLastD_concat, beq_iff_eq]
  rw [avrTransceiveCheck_eq last (by omega) (by omega)]
  simp only [hvalid]

/-- As long as every value the counter takes is below the bound the loop goes on. -/
theorem crcLoop_running {rxBuf : List (BitVec 8)} (fuel : Nat) (i crc : BitVec 8)
    (below : ∀ j < fuel, (i + BitVec.ofNat 8 j).toNat < rxBuf.length - 1) :
    crcLoop rxBuf fuel i crc = none := by
  induction fuel generalizing i crc with
  | zero => rfl
  | succ fuel ih =>
    have hfirst : i.toNat < rxBuf.length - 1 := by
      have hzero := below 0 (Nat.zero_lt_succ fuel)
      rwa [show BitVec.ofNat 8 0 = 0#8 from rfl, BitVec.add_zero] at hzero
    rw [crcLoop, if_pos hfirst]
    apply ih
    intro j hj
    have hnext := below (j + 1) (by omega)
    have hcounter : i + 1#8 + BitVec.ofNat 8 j = i + BitVec.ofNat 8 (j + 1) := by
      rw [BitVec.add_assoc, Nat.add_comm j 1, BitVec.ofNat_add]
    rw [hcounter]
    exact hnext

/-- The loop ends after as many turns as there are payload bytes, with the CRC of these bytes and
its counter at the last byte, and the result tells whether the two agree. -/
def CrcLoopEnds (rxBuf : List (BitVec 8)) : Prop :=
  ∃ i : BitVec 8, i.toNat = rxBuf.length - 1 ∧
    (∀ fuel < rxBuf.length, crcLoop rxBuf fuel 0#8 0#8 = none) ∧
    ∀ fuel, rxBuf.length ≤ fuel →
      crcLoop rxBuf fuel 0#8 0#8 = some (i, rxBuf.dropLast.foldl updateCrc 0#8) ∧
      avrTransceiveCheck fuel rxBuf =
        some (if rxBuf.dropLast.foldl updateCrc 0#8 = rxBuf.getD (rxBuf.length - 1) 0#8 then 0
          else - EIO)

theorem crcLoopEnds_of_length_le {rxBuf : List (BitVec 8)} (hne : rxBuf ≠ [])
    (hlen : rxBuf.length ≤ 256) : CrcLoopEnds rxBuf := by
  obtain ⟨payload, last, rfl⟩ := exists_last hne
  have hpayload : (payload ++ [last]).length = payload.length + 1 := by simp
  have hlast : (payload ++ [last]).getD payload.length 0#8 = last := by
    rw [List.getD_eq_getElem _ _ (by simp)]
    simp
  rw [hpayload] at hlen
  refine ⟨BitVec.ofNat 8 payload.length, ?_, ?_, ?_⟩
  · rw [BitVec.toNat_ofNat, hpayload]
    omega
  · intro fuel hfuel
    apply crcLoop_running
    intro j hj
    rw [BitVec.zero_add, BitVec.toNat_ofNat, hpayload]
    omega
  · intro fuel hfuel
    rw [hpayload] at hfuel ⊢
    have hshort : payload.length ≤ 255 := by omega
    have hloop := crcLoop_eq last hshort payload.length fuel 0#8 0#8 (by simp) (by omega)
    have hcheck := @avrTransceiveCheck_eq fuel payload last hshort (by omega)
    rw [List.dropLast_concat, Nat.add_sub_cancel, hlast]
    exact ⟨hloop, hcheck⟩

/-- A counter of eight bits never gets to the end of a longer buffer. -/
theorem crcLoop_diverges {rxBuf : List (BitVec 8)} (hlen : 256 < rxBuf.length) (fuel : Nat) :
    crcLoop rxBuf fuel 0#8 0#8 = none := by
  apply crcLoop_running
  intro j _
  have hcounter := (0#8 + BitVec.ofNat 8 j).isLt
  omega

theorem crcLoopEnds_iff {rxBuf : List (BitVec 8)} (hne : rxBuf ≠ []) :
    CrcLoopEnds rxBuf ↔ rxBuf.length ≤ 256 := by
  constructor
  · rintro ⟨_, _, _, ends⟩
    by_contra long
    have hnone := crcLoop_diverges (Nat.lt_of_not_le long) rxBuf.length
    obtain ⟨hsome, _⟩ := ends rxBuf.length (Nat.le_refl _)
    rw [hnone] at hsome
    simp at hsome
  · exact crcLoopEnds_of_length_le hne

theorem crcLoopEnds_iff_deviceId : CrcLoopEnds [0x1E#8, 0x93#8, 0x89#8, 0xB1#8] :=
  (crcLoopEnds_iff (by simp)).mpr (by decide)

theorem crcLoop_never_ends_257 :
    (List.replicate 257 0#8).length = 257 ∧
      ∀ fuel, crcLoop (List.replicate 257 0#8) fuel 0#8 0#8 = none :=
  ⟨List.length_replicate, fun fuel =>
    crcLoop_diverges (Nat.lt_of_lt_of_eq (by decide) List.length_replicate.symm) fuel⟩

theorem streamBits_length (words : List (BitVec 8)) : (streamBits words).length = 8 * words.length := by
  induction words with
  | nil => rfl
  | cons word rest ih =>
    have hcons : streamBits (word :: rest) = bits word ++ streamBits rest := rfl
    rw [hcons, List.length_append, bits_length, ih, List.length_cons]
    omega

theorem burst_length {sent received : List (BitVec 8)} (burst : BurstError 8 sent received) :
    received.length = sent.length := by
  obtain ⟨before, bs, bs', after, hsent, hreceived, hlen, -, -⟩ := burst
  have hs := streamBits_length sent
  have hr := streamBits_length received
  rw [hsent] at hs
  rw [hreceived] at hr
  simp only [List.length_append] at hs hr
  omega

/-- The nRF takes what the AVR sends, and no stream that differs from it by one burst. -/
theorem crc_agreement (libs : AvrLibs) (hcrc : libs.crcIbuttonUpdate = updateCrc)
    (first : BitVec 8) (further : List (BitVec 8)) (hlen : further.length + 1 ≤ 255) (fuel : Nat)
    (hfuel : further.length + 1 < fuel) :
    (txStream libs first further (further.length + 1)).length = further.length + 1 + 1 ∧
      avrTransceiveCheck fuel (txStream libs first further (further.length + 1)) = some 0 ∧
      ∀ received, BurstError 8 (txStream libs first further (further.length + 1)) received →
        avrTransceiveCheck fuel received = some (- EIO) := by
  rw [txStream_eq hcrc]
  have hpayload : (first :: further).length = further.length + 1 := rfl
  refine ⟨by rw [List.length_append, hpayload]; rfl, ?_, ?_⟩
  · rw [avrTransceiveCheck_eq _ (by omega) (by omega), if_pos rfl]
  · intro received burst
    have hcount := burst_length burst
    have hne : received ≠ [] := by
      rintro rfl
      simp at hcount
    obtain ⟨payload, last, rfl⟩ := exists_last hne
    simp only [List.length_append, List.length_cons] at hcount
    rw [avrTransceiveCheck_eq last (by omega) (by omega), if_neg]
    rw [updateCrc_eq_feed] at burst ⊢
    intro hvalid
    have hpoly : (0x8C#8).getLsbD (8 - 1) = true := by decide
    have hsent := (feed_eq_zero_iff hpoly ((first :: further).foldl (feed 0x8C#8) 0#8) _).mpr rfl
    have hreceived := (feed_eq_zero_iff hpoly _ _).mpr hvalid
    refine burst_detected hpoly burst 0#8 ?_
    rw [List.foldl_append, List.foldl_append]
    exact hreceived.trans hsent.symm

end Receiver

theorem crc_agreement_deviceId :
    (txStream mouseLibs 0x1E#8 [0x93#8, 0x89#8] 3).length = 4 ∧
      avrTransceiveCheck 4 (txStream mouseLibs 0x1E#8 [0x93#8, 0x89#8] 3) = some 0 ∧
      ∀ received, BurstError 8 (txStream mouseLibs 0x1E#8 [0x93#8, 0x89#8] 3) received →
        avrTransceiveCheck 4 received = some (- EIO) :=
  crc_agreement mouseLibs rfl 0x1E#8 [0x93#8, 0x89#8] (by decide) 4 (by decide)

end MyMouse
