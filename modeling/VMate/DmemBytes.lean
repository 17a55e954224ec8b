import VMate.Dmem
import VMate.Bytes

namespace VMate.DmemBytes

open Dmem Bytes BitNat

/-- Where byte `k` of an access lies when the address wraps round at the end
of the array. -/
def wrap (addr : BitVec 32) (k : Nat) : Nat := (addr.toNat + k) % memBytes

def Fits (addr : BitVec 32) (n : Nat) : Prop := maskedAddr addr + n ≤ memBytes

instance (addr : BitVec 32) (n : Nat) : Decidable (Fits addr n) :=
  inferInstanceAs (Decidable (maskedAddr addr + n ≤ memBytes))

/-- `m'` holds the `n` low bytes of `data` from `addr` on and is `m` elsewhere. -/
structure Stored (m m' : Nat → BitVec 8) (addr : BitVec 32) (n : Nat) (data : BitVec 64) : Prop where
  bytes : ∀ k < n, m' (wrap addr k) = byte data k
  frame : ∀ a < memBytes, (∀ k < n, a ≠ wrap addr k) → m' a = m a

/-- The sizes 110 and 111 name no load. -/
def isLoad (memSize : BitVec 3) : Bool := memSize.ult 0b110#3

/-- The word of the bytes `f`; bit 2 of the size asks for zeros above them. -/
def loadWord (memSize : BitVec 3) (f : Nat → BitVec 8) : BitVec 32 :=
  if memSize.getLsbD 2 then (ofBytes f (storeBytes memSize)).setWidth 32
  else (ofBytes f (storeBytes memSize)).signExtend 32

structure Loaded (r : BitVec 64) (memSize : BitVec 3) (f : Nat → BitVec 8) : Prop where
  low : r.extractLsb 31 0 = loadWord memSize f
  double : memSize = 0b011#3 → r = ofBytes f 8

/-- The bytes that reads past the end of the array return are replaced by `u`. -/
def withBeyond (d : State) (u : Nat → BitVec 8) : State :=
  { d with mem := fun a => if a < memBytes then d.mem a else u a }

/-- How far round the ring `a` lies from `addr`. -/
def offset (addr : BitVec 32) (a : Nat) : Nat := (a + memBytes - maskedAddr addr) % memBytes

/-- The array as a ring of bytes after a store. -/
def ringStore (m : Nat → BitVec 8) (addr : BitVec 32) (n : Nat) (data : BitVec 64) (a : Nat) : BitVec 8 :=
  if offset addr a < n then byte data (offset addr a) else m a

theorem maskedAddr_eq (addr : BitVec 32) : maskedAddr addr = addr.toNat % memBytes := by
  rw [maskedAddr, BitVec.extractLsb_toNat]
  rfl

theorem maskedAddr_lt (addr : BitVec 32) : maskedAddr addr < memBytes := by
  rw [maskedAddr_eq]
  exact Nat.mod_lt _ (by decide)

theorem wrap_lt (addr : BitVec 32) (k : Nat) : wrap addr k < memBytes := Nat.mod_lt _ (by decide)

theorem wrap_eq (addr : BitVec 32) (k : Nat) : wrap addr k = (maskedAddr addr + k) % memBytes := by
  rw [wrap, maskedAddr_eq, Nat.mod_add_mod]

theorem wrap_of_lt {addr : BitVec 32} {k : Nat} (h : maskedAddr addr + k < memBytes) :
    wrap addr k = maskedAddr addr + k := by
  rw [wrap_eq, Nat.mod_eq_of_lt h]

/-- Past the end the ring starts again, below the base of the access. -/
theorem wrap_of_ge {addr : BitVec 32} {k : Nat} (hk : k < memBytes) (h : memBytes ≤ maskedAddr addr + k) :
    wrap addr k + memBytes = maskedAddr addr + k := by
  have hlt := maskedAddr_lt addr
  rw [wrap_eq, Nat.mod_eq_sub_mod h, Nat.mod_eq_of_lt (by omega)]
  omega

theorem wrap_offset (addr : BitVec 32) {a : Nat} (ha : a < memBytes) : wrap addr (offset addr a) = a := by
  have hlt := maskedAddr_lt addr
  rw [wrap_eq, offset, Nat.add_mod_mod, show maskedAddr addr + (a + memBytes - maskedAddr addr) = a + memBytes by omega,
    Nat.add_mod_right, Nat.mod_eq_of_lt ha]

theorem offset_wrap (addr : BitVec 32) {k : Nat} (hk : k < memBytes) : offset addr (wrap addr k) = k := by
  have hlt := maskedAddr_lt addr
  by_cases h : memBytes ≤ maskedAddr addr + k
  · have hw := wrap_of_ge hk h
    rw [offset, hw, Nat.add_sub_cancel_left, Nat.mod_eq_of_lt hk]
  · rw [offset, wrap_of_lt (by omega), show maskedAddr addr + k + memBytes - maskedAddr addr = k + memBytes by omega,
      Nat.add_mod_right, Nat.mod_eq_of_lt hk]

theorem storeBytes_le (memSize : BitVec 3) : storeBytes memSize ≤ 8 := by
  unfold storeBytes
  split_ifs <;> decide

section Store

variable {m m' : Nat → BitVec 8} {addr : BitVec 32} {n : Nat} {data : BitVec 64}

theorem Stored.eq_ringStore (hn : n < memBytes) (h : Stored m m' addr n data) {a : Nat} (ha : a < memBytes) :
    m' a = ringStore m addr n data a := by
  unfold ringStore
  by_cases hk : offset addr a < n
  · rw [if_pos hk, ← h.bytes _ hk, wrap_offset addr ha]
  · rw [if_neg hk]
    apply h.frame a ha
    rintro k hkn rfl
    exact hk (by rwa [offset_wrap addr (hkn.trans hn)])

theorem stored_writeBytes_iff (hn : n < memBytes) :
    Stored m (writeBytes m (maskedAddr addr) data n) addr n data ↔
      ∀ k < n, memBytes ≤ maskedAddr addr + k → m (wrap addr k) = byte data k := by
  have hbyte (k : Nat) (hk : k < n) : writeBytes m (maskedAddr addr) data n (wrap addr k) =
      if memBytes ≤ maskedAddr addr + k then m (wrap addr k) else byte data k := by
    rw [writeBytes_apply]
    by_cases h : memBytes ≤ maskedAddr addr + k
    · have hw := wrap_of_ge (by omega) h
      have hlt := maskedAddr_lt addr
      rw [if_pos h, if_neg (by omega)]
    · rw [if_neg h, wrap_of_lt (by omega), if_pos (by omega), Nat.add_sub_cancel_left]
      rfl
  constructor
  · intro h k hk hbeyond
    rw [← h.bytes k hk, hbyte k hk, if_pos hbeyond]
  · intro h
    refine ⟨fun k hk => ?_, fun a ha hne => ?_⟩
    · rw [hbyte k hk]
      by_cases hbeyond : memBytes ≤ maskedAddr addr + k
      · rw [if_pos hbeyond, h k hk hbeyond]
      · rw [if_neg hbeyond]
    · rw [writeBytes_apply, if_neg]
      rintro ⟨hlow, hhigh, -⟩
      refine hne (a - maskedAddr addr) (by omega) ?_
      rw [wrap_of_lt (by omega)]
      omega

theorem stored_of_fits (hn : n < memBytes) (hf : Fits addr n) :
    Stored m (writeBytes m (maskedAddr addr) data n) addr n data :=
  (stored_writeBytes_iff hn).mpr fun k hk hbeyond => by
    unfold Fits at hf
    omega

theorem Stored.congr {data' : BitVec 64} (h : Stored m m' addr n data) (hd : ∀ k < n, byte data k = byte data' k) :
    Stored m m' addr n data' :=
  ⟨fun k hk => (h.bytes k hk).trans (hd k hk), h.frame⟩

end Store

section Load

variable {d : State} {i : DmemIn}

theorem low_setWidth {v : Nat} (x : BitVec v) : (x.setWidth 64).extractLsb 31 0 = x.setWidth 32 := by
  rw [BitVec.extractLsb, ← BitVec.setWidth_eq_extractLsb' (by decide)]
  exact BitVec.setWidth_setWidth_of_le x (by decide)

theorem low_signExtend {v : Nat} (x : BitVec v) : (x.signExtend 64).extractLsb 31 0 = x.signExtend 32 := by
  rw [BitVec.extractLsb, ← BitVec.setWidth_eq_extractLsb' (by decide)]
  exact setWidth_signExtend_of_le x (by decide)

/-- The bytes that a load reads start at the masked address and do not wrap. -/
def rawBytes (d : State) (i : DmemIn) (k : Nat) : BitVec 8 := d.mem (maskedAddr i.addr + k)

theorem isLoad_cases {memSize : BitVec 3} (h : isLoad memSize = true) :
    memSize = 0b000#3 ∨ memSize = 0b001#3 ∨ memSize = 0b010#3 ∨ memSize = 0b011#3 ∨ memSize = 0b100#3 ∨
      memSize = 0b101#3 := by
  revert memSize
  decide

theorem readDataReg_double (hr : i.memRead = true) (hm : i.memSize = 0b011#3) :
    readDataReg d i = ofBytes (rawBytes d i) 8 := by
  rw [← append_eight]
  simp [readDataReg, rawBytes, hr, hm]

theorem low_readDataReg (hr : i.memRead = true) (hl : isLoad i.memSize = true) :
    (readDataReg d i).extractLsb 31 0 = loadWord i.memSize (rawBytes d i) := by
  obtain hm | hm | hm | hm | hm | hm := isLoad_cases hl
  · have he : readDataReg d i = (rawBytes d i 0).signExtend 64 := by simp [readDataReg, rawBytes, hr, hm]
    rw [he, hm, low_signExtend, ← ofBytes_one (rawBytes d i)]
    rfl
  · have he : readDataReg d i = ((ofBytes (rawBytes d i) 2).signExtend 32).setWidth 64 := by
      simp [readDataReg, rawBytes, hr, hm, ← append_two]
    rw [he, hm, low_setWidth]
    rfl
  · have he : readDataReg d i = (ofBytes (rawBytes d i) 4).setWidth 64 := by
      simp [readDataReg, rawBytes, hr, hm, ← append_four]
    rw [he, hm, low_setWidth]
    exact (BitVec.setWidth_eq _).trans (BitVec.signExtend_eq _).symm
  · rw [readDataReg_double hr hm, hm, BitVec.extractLsb, ← BitVec.setWidth_eq_extractLsb' (by decide)]
    exact (BitVec.signExtend_eq_setWidth_of_le _ (by decide)).symm
  · have he : readDataReg d i = (rawBytes d i 0).setWidth 64 := by simp [readDataReg, rawBytes, hr, hm]
    rw [he, hm, low_setWidth, ← ofBytes_one (rawBytes d i)]
    rfl
  · have he : readDataReg d i = (ofBytes (rawBytes d i) 2).setWidth 64 := by
      simp [readDataReg, rawBytes, hr, hm, ← append_two]
    rw [he, hm, low_setWidth]
    rfl

theorem loaded_readData (ha : i.amoEn = false) (hr : i.memRead = true) (hl : isLoad i.memSize = true) :
    Loaded (readData d i) i.memSize (rawBytes d i) := by
  have hread : readData d i = readDataReg d i := by simp [readData, ha]
  rw [hread]
  exact ⟨low_readDataReg hr hl, readDataReg_double hr⟩

theorem loadWord_congr {memSize : BitVec 3} {f g : Nat → BitVec 8}
    (h : ofBytes f (storeBytes memSize) = ofBytes g (storeBytes memSize)) : loadWord memSize f = loadWord memSize g := by
  rw [loadWord, loadWord, h]

/-- The bytes of a load up to a word can be read off its result. -/
theorem setWidth_loadWord {memSize : BitVec 3} (hn : storeBytes memSize ≤ 4) (f : Nat → BitVec 8) :
    (loadWord memSize f).setWidth (8 * storeBytes memSize) = ofBytes f (storeBytes memSize) := by
  rw [loadWord]
  split_ifs
  · rw [BitVec.setWidth_setWidth_of_le _ (by omega), BitVec.setWidth_eq]
  · rw [setWidth_signExtend_of_le _ (by omega), BitVec.signExtend_eq]

theorem storeBytes_of_isLoad {memSize : BitVec 3} (hl : isLoad memSize = true) (hd : memSize ≠ 0b011#3) :
    storeBytes memSize ≤ 4 := by
  revert memSize
  decide

/-- The result of a load determines the bytes it is made of. -/
theorem loaded_iff {r : BitVec 64} {memSize : BitVec 3} {f g : Nat → BitVec 8} (hl : isLoad memSize = true)
    (hf : Loaded r memSize f) : Loaded r memSize g ↔ ∀ k < storeBytes memSize, f k = g k := by
  rw [← ofBytes_inj]
  constructor
  · intro hg
    by_cases hd : memSize = 0b011#3
    · have h8 := (hf.double hd).symm.trans (hg.double hd)
      subst hd
      exact h8
    · have hn := storeBytes_of_isLoad hl hd
      rw [← setWidth_loadWord hn f, ← hf.low, hg.low, setWidth_loadWord hn g]
  · intro h
    refine ⟨hf.low.trans (loadWord_congr h), fun hd => (hf.double hd).trans ?_⟩
    subst hd
    exact h

end Load

theorem withBeyond_inside (d : State) (u : Nat → BitVec 8) {a : Nat} (ha : a < memBytes) :
    (withBeyond d u).mem a = d.mem a := if_pos ha

theorem withBeyond_outside (d : State) (u : Nat → BitVec 8) {a : Nat} (ha : ¬ a < memBytes) :
    (withBeyond d u).mem a = u a := if_neg ha

theorem beyond_of_fits {d : State} {addr : BitVec 32} {n k : Nat} (hf : Fits addr n) (hk : k < n) :
    d.mem (maskedAddr addr + k) = d.mem (wrap addr k) := by
  unfold Fits at hf
  rw [wrap_of_lt (by omega)]

/-- An access whose bytes are in the ring whatever lies beyond the array ends
inside it. -/
theorem fits_of_beyond {d : State} {addr : BitVec 32} {n : Nat}
    (h : ∀ u, ∀ k < n, (withBeyond d u).mem (maskedAddr addr + k) = (withBeyond d u).mem (wrap addr k)) :
    Fits addr n := by
  by_contra hf
  unfold Fits at hf
  have hlt := maskedAddr_lt addr
  obtain ⟨k, rfl⟩ : ∃ k, n = k + 1 := ⟨n - 1, by omega⟩
  have hb := h (fun _ => d.mem (wrap addr k) + 1#8) k (by omega)
  rw [withBeyond_outside _ _ (by omega), withBeyond_inside _ _ (wrap_lt _ _)] at hb
  exact absurd hb (by simp)

section Access

variable {d : State} {i j : DmemIn}

theorem mem_store (ha : i.amoEn = false) (hw : i.memWrite = true) :
    (dmemTick d i).mem = writeBytes d.mem (maskedAddr i.addr) i.writeData (storeBytes i.memSize) := by
  simp [dmemTick, executeWrite, actualWriteData, ha, hw]

theorem store_iff (ha : i.amoEn = false) (hw : i.memWrite = true) :
    Stored d.mem (dmemTick d i).mem i.addr (storeBytes i.memSize) i.writeData ↔
      ∀ k < storeBytes i.memSize, memBytes ≤ maskedAddr i.addr + k → d.mem (wrap i.addr k) = byte i.writeData k := by
  rw [mem_store ha hw]
  exact stored_writeBytes_iff (lt_of_le_of_lt (storeBytes_le _) (by decide))

theorem load_of_fits (ha : i.amoEn = false) (hr : i.memRead = true) (hl : isLoad i.memSize = true)
    (hf : Fits i.addr (storeBytes i.memSize)) :
    Loaded (readData d i) i.memSize (fun k => d.mem (wrap i.addr k)) :=
  (loaded_iff hl (loaded_readData ha hr hl)).mpr fun _ hk => beyond_of_fits hf hk

/-- A load past the end of the array shows whatever byte is read there. -/
theorem load_iff (ha : i.amoEn = false) (hr : i.memRead = true) (hl : isLoad i.memSize = true) :
    (∀ u, Loaded (readData (withBeyond d u) i) i.memSize (fun k => (withBeyond d u).mem (wrap i.addr k))) ↔
      Fits i.addr (storeBytes i.memSize) := by
  constructor
  · intro h
    apply fits_of_beyond
    intro u
    exact (loaded_iff hl (loaded_readData ha hr hl)).mp (h u)
  · intro hf u
    exact load_of_fits ha hr hl hf

/-- A load sees the ring of bytes that the store before it left. -/
theorem load_after_store (ha : i.amoEn = false) (hw : i.memWrite = true) (hf : Fits i.addr (storeBytes i.memSize))
    (haj : j.amoEn = false) (hrj : j.memRead = true) (hlj : isLoad j.memSize = true)
    (hfj : Fits j.addr (storeBytes j.memSize)) :
    Loaded (readData (dmemTick d i) j) j.memSize
      (fun k => ringStore d.mem i.addr (storeBytes i.memSize) i.writeData (wrap j.addr k)) := by
  have hn : storeBytes i.memSize < memBytes := lt_of_le_of_lt (storeBytes_le _) (by decide)
  refine (loaded_iff hlj (load_of_fits haj hrj hlj hfj)).mpr fun k hk => ?_
  rw [mem_store ha hw]
  exact (stored_of_fits hn hf).eq_ringStore hn (wrap_lt _ _)

end Access

/-- Memory accesses are those of a ring of bytes as long as they end inside
the array. The base address is masked but the sum with the byte's number is
not: past the end nothing is written and nothing known is read. -/
theorem access_iff (d : State) (i : DmemIn) (ha : i.amoEn = false) :
    (i.memWrite = true →
      (Stored d.mem (dmemTick d i).mem i.addr (storeBytes i.memSize) i.writeData ↔
        ∀ k < storeBytes i.memSize, memBytes ≤ maskedAddr i.addr + k →
          d.mem (wrap i.addr k) = byte i.writeData k)) ∧
    (i.memRead = true → isLoad i.memSize = true →
      ((∀ u, Loaded (readData (withBeyond d u) i) i.memSize (fun k => (withBeyond d u).mem (wrap i.addr k))) ↔
        Fits i.addr (storeBytes i.memSize))) ∧
    (i.memWrite = true → Fits i.addr (storeBytes i.memSize) →
      ∀ j, j.amoEn = false → j.memRead = true → isLoad j.memSize = true → Fits j.addr (storeBytes j.memSize) →
        Loaded (readData (dmemTick d i) j) j.memSize
          (fun k => ringStore d.mem i.addr (storeBytes i.memSize) i.writeData (wrap j.addr k))) :=
  ⟨store_iff ha, load_iff ha, fun hw hf _ haj hrj hlj hfj => load_after_store ha hw hf haj hrj hlj hfj⟩

def zeros : State := { mem := fun _ => 0, reservationAddr := 0, reservationValid := false }

def access (memWrite memRead : Bool) (addr : BitVec 32) (memSize : BitVec 3) (writeData : BitVec 64) : DmemIn :=
  { memWrite, memRead, amoEn := false, amoOp := 0, addr, writeData, memSize }

/-- A halfword stored into the last two bytes, then read back by a signed load. -/
theorem access_iff_lastHalf :
    Loaded (readData (dmemTick zeros (access true false 0x7FFFE#32 0b001#3 0x8001#64))
        (access false true 0x8007FFFE#32 0b001#3 0#64)) 0b001#3
      (fun k => ringStore zeros.mem 0x7FFFE#32 2 0x8001#64 (wrap 0x8007FFFE#32 k)) :=
  (access_iff zeros (access true false 0x7FFFE#32 0b001#3 0x8001#64) rfl).2.2 rfl (by decide)
    (access false true 0x8007FFFE#32 0b001#3 0#64) rfl rfl rfl (by decide)

/-- The two high bytes of a word stored at `0x7FFFE` are lost. -/
theorem store_past_end :
    ¬ Stored zeros.mem (dmemTick zeros (access true false 0x7FFFE#32 0b010#3 0x11111111#64)).mem 0x7FFFE#32 4
      0x11111111#64 := by
  intro h
  have hb := h.bytes 2 (by decide)
  revert hb
  decide

end VMate.DmemBytes
