import OnePass.Assembly.Image

/-! # Words and bytes in arithmetic

    A field keeps a value modulo a power of two, and the fields of a word never
    overlap, so a word is a sum of its fields, each shifted to its place.
    Everything about `encode` and `decode` is derived from these sums:

    * `fit_eq`           : masking and casting is reducing to the width of the
      field.
    * `decode_encode`    : an instruction that fits its word is read back.
    * `encode_of_decode` : a word that is read is written back, apart from the
      bits that no field uses.
    * `readWords_bytes`  : cutting a byte sequence in pairs gives its words. -/

namespace OnePass

/-- Appending is adding, since the low part does not reach into the high one. -/
theorem toNat_append_eq_add {m n : Nat} (x : BitVec m) (y : BitVec n) :
    (x ++ y).toNat = x.toNat <<< n + y.toNat := by
  rw [BitVec.toNat_append, Nat.shiftLeft_add_eq_or_of_lt y.isLt]

theorem Word.toNat_opcode (w : Word) : (w.extractLsb' 12 4).toNat = w.toNat >>> 12 := by
  have hw := w.isLt
  rw [BitVec.extractLsb'_toNat]
  omega

/-- A word without the bits that no field uses: the low four bits of a
    `move` word are cleared, every other word is kept. -/
def Word.normal (w : Word) : Word :=
  if w.extractLsb' 12 4 = Mnemonic.move.opcode then (w >>> 4) <<< 4 else w

namespace Mnemonic

theorem ofCode?_eq_some_iff {n : Nat} {m : Mnemonic} :
    ofCode? n = some m ↔ n = m.code := by
  constructor
  · intro h
    exact (beq_iff_eq.1 (List.find?_some h :)).symm
  · rintro rfl
    cases m <;> rfl

theorem ofName?_eq_some_iff {text : String} {m : Mnemonic} :
    ofName? text = some m ↔ text = m.name := by
  constructor
  · intro h
    exact (beq_iff_eq.1 (List.find?_some h :)).symm
  · rintro rfl
    exact ofName?_name m

end Mnemonic

theorem Word.normal_of_code {w : Word} {m : Mnemonic} (hm : m ≠ .move)
    (h : w.toNat >>> 12 = m.code) : w.normal = w := by
  refine if_neg fun hop => ?_
  have hcode := congrArg BitVec.toNat hop
  rw [Word.toNat_opcode, h] at hcode
  cases m <;> simp [Mnemonic.code, Mnemonic.opcode] at hcode hm

/-! ## Fields -/

/-- The record of `value` going into a field of `width` bits that does not
    hold all of it. -/
def overflow? (width value : Nat) : Option Overflow :=
  if (BitVec.ofNat width value).toNat = value then none else some ⟨value, width⟩

theorem one_shiftLeft_pos (width : Nat) : 0 < 1 <<< width := by
  rw [Nat.one_shiftLeft]
  exact Nat.two_pow_pos width

/-- A field overflows exactly if the value does not stay below its bound. -/
theorem overflow?_eq {width bound : Nat} (hbound : 1 <<< width = bound) (n : Nat) :
    overflow? width n = if bound ≤ n then some ⟨n, width⟩ else none := by
  have hmod : (BitVec.ofNat width n).toNat = n % bound := by
    rw [BitVec.toNat_ofNat, ← hbound, Nat.one_shiftLeft]
  have hpos : 0 < bound := hbound ▸ one_shiftLeft_pos width
  unfold overflow?
  by_cases h : bound ≤ n
  · have hne : (BitVec.ofNat width n).toNat ≠ n := by
      have hlt := Nat.mod_lt n hpos
      omega
    rw [if_neg hne, if_pos h]
  · have heq : (BitVec.ofNat width n).toNat = n := by
      rw [hmod]
      exact Nat.mod_eq_of_lt (Nat.lt_of_not_le h)
    rw [if_pos heq, if_neg h]

/-- Whatever the width of a field, its mask keeps the value modulo its bound,
    and the values above the mask are those that do not fit. -/
theorem fit_eq (width value : Nat) :
    fit width value = ((BitVec.ofNat width value).setWidth 16, overflow? width value) := by
  have hkept : BitVec.ofNat 16 (value &&& ((1 <<< width) - 1)) =
      (BitVec.ofNat width value).setWidth 16 := by
    apply BitVec.eq_of_toNat_eq
    rw [Nat.one_shiftLeft, Nat.and_two_pow_sub_one_eq_mod, BitVec.toNat_ofNat,
      BitVec.toNat_setWidth, BitVec.toNat_ofNat]
  have hpos := one_shiftLeft_pos width
  have hlost : (if (1 <<< width) - 1 < value then some (⟨value, width⟩ : Overflow) else none) =
      overflow? width value := by
    rw [overflow?_eq rfl]
    by_cases h : 1 <<< width ≤ value
    · rw [if_pos h, if_pos (by omega)]
    · rw [if_neg h, if_neg (by omega)]
  exact Prod.ext hkept hlost

/-- A field that is no wider than a word loses nothing on the way through it. -/
theorem setWidth_field {width : Nat} (h : width ≤ 16) (x : BitVec width) :
    (x.setWidth 16).setWidth width = x := by
  rw [BitVec.setWidth_setWidth_of_le x h, BitVec.setWidth_eq]

namespace Instruction

theorem build_lri (dest : Register) (n : Nat) :
    build .lri [.register dest, .integer n] =
      some (.lri dest (BitVec.ofNat 8 n), overflow? 8 n) := by
  show some (lri dest ((fit 8 n).1.setWidth 8), (fit 8 n).2) = _
  rw [fit_eq, setWidth_field (by decide)]

theorem build_load (reg : Register) (n : Nat) :
    build .load [.register reg, .integer n] =
      some (.load reg (BitVec.ofNat 8 n), overflow? 8 n) := by
  show some (load reg ((fit 8 n).1.setWidth 8), (fit 8 n).2) = _
  rw [fit_eq, setWidth_field (by decide)]

theorem build_jmp (n : Nat) :
    build .jmp [.integer n] = some (.jmp ((BitVec.ofNat 12 n).setWidth 16), overflow? 12 n) := by
  show some (jmp (fit 12 n).1, (fit 12 n).2) = _
  rw [fit_eq]

/-! ## Words as sums -/

theorem toNat_encode_lri (dest : Register) (imm : BitVec 8) :
    (lri dest imm).encode.toNat = 4096 * 1 + 16 * imm.toNat + dest.index.toNat := by
  show (Mnemonic.lri.opcode ++ imm ++ dest.index).toNat = _
  have hop : Mnemonic.lri.opcode.toNat = 1 := rfl
  rw [toNat_append_eq_add, toNat_append_eq_add, hop]
  omega

theorem toNat_encode_move (src dest : Register) :
    (move src dest).encode.toNat =
      4096 * 2 + 256 * src.index.toNat + 16 * dest.index.toNat := by
  show (Mnemonic.move.opcode ++ src.index ++ dest.index ++ 0#4).toNat = _
  have hop : Mnemonic.move.opcode.toNat = 2 := rfl
  have hlow : (0#4).toNat = 0 := rfl
  rw [toNat_append_eq_add, toNat_append_eq_add, toNat_append_eq_add, hop, hlow]
  omega

theorem toNat_encode_load (reg : Register) (addr : BitVec 8) :
    (load reg addr).encode.toNat = 4096 * 3 + 256 * reg.index.toNat + addr.toNat := by
  show (Mnemonic.load.opcode ++ reg.index ++ addr).toNat = _
  have hop : Mnemonic.load.opcode.toNat = 3 := rfl
  rw [toNat_append_eq_add, toNat_append_eq_add, hop]
  omega

theorem toNat_encode_add (src1 src2 dest : Register) :
    (add src1 src2 dest).encode.toNat =
      4096 * 4 + 256 * src1.index.toNat + 16 * src2.index.toNat + dest.index.toNat := by
  show (Mnemonic.add.opcode ++ src1.index ++ src2.index ++ dest.index).toNat = _
  have hop : Mnemonic.add.opcode.toNat = 4 := rfl
  rw [toNat_append_eq_add, toNat_append_eq_add, toNat_append_eq_add, hop]
  omega

/-- The destination of a jump is not masked, so it has to stay clear of the
    opcode by itself. -/
theorem toNat_encode_jmp {dest : BitVec 16} (h : dest.toNat < 4096) :
    (jmp dest).encode.toNat = 4096 * 5 + dest.toNat := by
  show ((Mnemonic.jmp.opcode ++ 0#12) ||| dest).toNat = _
  -- Two numbers without a common bit: joining their bits is adding them.
  have hop : (Mnemonic.jmp.opcode ++ 0#12).toNat = 5 <<< 12 := rfl
  rw [BitVec.toNat_or, hop, ← Nat.shiftLeft_add_eq_or_of_lt h]
  omega

/-! ## Decoding -/

/-- The instruction of a mnemonic with its fields cut out of `w`. -/
def unpack (m : Mnemonic) (w : Word) : Instruction :=
  match m with
  | .lri  => lri (registerAt w 0) (w.extractLsb' 4 8)
  | .move => move (registerAt w 8) (registerAt w 4)
  | .load => load (registerAt w 8) (w.extractLsb' 0 8)
  | .add  => add (registerAt w 8) (registerAt w 4) (registerAt w 0)
  | .jmp  => jmp ((w.extractLsb' 0 12).setWidth 16)

/-- Decoding asks for the opcode first and then cuts out the fields. -/
theorem decode_eq_some_iff {w : Word} {i : Instruction} :
    decode w = some i ↔ ∃ m : Mnemonic, w.toNat >>> 12 = m.code ∧ i = unpack m w := by
  have hmap : decode w = (Mnemonic.ofCode? (w.toNat >>> 12)).map fun m => unpack m w := by
    rw [decode, Word.toNat_opcode]
    rfl
  rw [hmap, Option.map_eq_some_iff]
  simp only [Mnemonic.ofCode?_eq_some_iff, eq_comm (a := i)]

theorem registerAt_eq {w : Word} {start : Nat} {r : Register}
    (h : (w.toNat >>> start) % 16 = r.index.toNat) : registerAt w start = r := by
  refine congrArg Register.mk (BitVec.eq_of_toNat_eq ?_)
  rw [BitVec.extractLsb'_toNat]
  exact h

theorem toNat_registerAt (w : Word) (start : Nat) :
    (registerAt w start).index.toNat = (w.toNat >>> start) % 16 :=
  BitVec.extractLsb'_toNat ..

/-- An instruction whose fields stay inside their places.  Only the
    destination of a jump can be wider than the room it has. -/
def Fits : Instruction → Prop
  | jmp dest => dest.toNat < 4096
  | _        => True

/-- What is read from a word fits. -/
theorem fits_of_decode {w : Word} {i : Instruction} (h : decode w = some i) : i.Fits := by
  obtain ⟨m, _, rfl⟩ := decode_eq_some_iff.1 h
  cases m with
  | jmp =>
    show ((w.extractLsb' 0 12).setWidth 16).toNat < 4096
    have hlt := (w.extractLsb' 0 12).isLt
    rw [BitVec.toNat_setWidth]
    omega
  | _ => trivial

/-- What is built from operands fits. -/
theorem fits_of_build {m : Mnemonic} {os : List Operand} {i : Instruction}
    {lost : Option Overflow} (h : build m os = some (i, lost)) : i.Fits := by
  unfold build at h
  split at h
  case h_5 n =>
    cases h.symm.trans (build_jmp n)
    show ((BitVec.ofNat 12 n).setWidth 16).toNat < 4096
    have hlt := (BitVec.ofNat 12 n).isLt
    rw [BitVec.toNat_setWidth]
    omega
  case h_6 => cases h
  all_goals
    cases h
    trivial

/-- An instruction that fits is read back from its word. -/
theorem decode_encode {i : Instruction} (h : i.Fits) : decode i.encode = some i := by
  rw [decode_eq_some_iff]
  cases i with
  | lri dest imm =>
    have hw := toNat_encode_lri dest imm
    refine ⟨.lri, by simp only [Mnemonic.code]; omega, ?_⟩
    have himm : (lri dest imm).encode.extractLsb' 4 8 = imm := by
      refine BitVec.eq_of_toNat_eq ?_
      rw [BitVec.extractLsb'_toNat]
      omega
    rw [unpack, himm, registerAt_eq (r := dest) (by omega)]
  | move src dest =>
    have hw := toNat_encode_move src dest
    refine ⟨.move, by simp only [Mnemonic.code]; omega, ?_⟩
    rw [unpack, registerAt_eq (r := src) (by omega), registerAt_eq (r := dest) (by omega)]
  | load reg addr =>
    have hw := toNat_encode_load reg addr
    refine ⟨.load, by simp only [Mnemonic.code]; omega, ?_⟩
    have haddr : (load reg addr).encode.extractLsb' 0 8 = addr := by
      refine BitVec.eq_of_toNat_eq ?_
      rw [BitVec.extractLsb'_toNat]
      omega
    rw [unpack, haddr, registerAt_eq (r := reg) (by omega)]
  | add src1 src2 dest =>
    have hw := toNat_encode_add src1 src2 dest
    refine ⟨.add, by simp only [Mnemonic.code]; omega, ?_⟩
    rw [unpack, registerAt_eq (r := src1) (by omega), registerAt_eq (r := src2) (by omega),
      registerAt_eq (r := dest) (by omega)]
  | jmp dest =>
    have hw := toNat_encode_jmp h
    have hlt : dest.toNat < 4096 := h
    refine ⟨.jmp, by simp only [Mnemonic.code]; omega, ?_⟩
    refine congrArg jmp (BitVec.eq_of_toNat_eq ?_)
    rw [BitVec.toNat_setWidth, BitVec.extractLsb'_toNat]
    omega

/-- A word that is read is written back in its normal form. -/
theorem encode_of_decode {w : Word} {i : Instruction} (h : decode w = some i) :
    i.encode = w.normal := by
  have hfits := fits_of_decode h
  obtain ⟨m, hcode, rfl⟩ := decode_eq_some_iff.1 h
  refine BitVec.eq_of_toNat_eq ?_
  cases m with
  | lri =>
    rw [Word.normal_of_code (by decide) hcode]
    rw [unpack, toNat_encode_lri, toNat_registerAt, BitVec.extractLsb'_toNat]
    simp only [Mnemonic.code] at hcode
    omega
  | move =>
    have hop : w.extractLsb' 12 4 = Mnemonic.move.opcode := by
      refine BitVec.eq_of_toNat_eq ?_
      rw [Word.toNat_opcode, hcode]
      rfl
    rw [Word.normal, if_pos hop, BitVec.toNat_shiftLeft, BitVec.toNat_ushiftRight]
    rw [unpack, toNat_encode_move, toNat_registerAt, toNat_registerAt]
    simp only [Mnemonic.code] at hcode
    omega
  | load =>
    rw [Word.normal_of_code (by decide) hcode]
    rw [unpack, toNat_encode_load, toNat_registerAt, BitVec.extractLsb'_toNat]
    simp only [Mnemonic.code] at hcode
    omega
  | add =>
    rw [Word.normal_of_code (by decide) hcode]
    rw [unpack, toNat_encode_add, toNat_registerAt, toNat_registerAt, toNat_registerAt]
    simp only [Mnemonic.code] at hcode
    omega
  | jmp =>
    rw [Word.normal_of_code (by decide) hcode]
    rw [unpack, toNat_encode_jmp hfits, BitVec.toNat_setWidth, BitVec.extractLsb'_toNat]
    simp only [Mnemonic.code] at hcode
    omega

end Instruction

/-! ## Bytes -/

/-- The bytes of a word are its quotient and its remainder by 256. -/
theorem Word.bytes_eq (w : Word) : w.bytes = [.ofNat (w.toNat / 256), .ofNat (w.toNat % 256)] := by
  have hhigh : w.extractLsb' 8 8 = BitVec.ofNat 8 (w.toNat / 256) := by
    apply BitVec.eq_of_toNat_eq
    rw [BitVec.extractLsb'_toNat, BitVec.toNat_ofNat, Nat.shiftRight_eq_div_pow]
  have hlow : w.extractLsb' 0 8 = BitVec.ofNat 8 (w.toNat % 256) := by
    apply BitVec.eq_of_toNat_eq
    rw [BitVec.extractLsb'_toNat, BitVec.toNat_ofNat, Nat.shiftRight_zero, Nat.mod_mod]
  rw [Word.bytes, hhigh, hlow]
  rfl

/-- Two bytes as a word, high byte first. -/
def Word.ofBytes (hi lo : UInt8) : Word :=
  BitVec.ofNat 16 (256 * hi.toNat + lo.toNat)

/-- A byte sequence cut in consecutive pairs, each read as a word.  There is
    no result if a byte is left over. -/
def readWords : List UInt8 → Option (List Word)
  | []            => some []
  | [_]           => none
  | hi :: lo :: bs => (readWords bs).map (Word.ofBytes hi lo :: ·)

theorem Word.ofBytes_bytes (w : Word) :
    Word.ofBytes ⟨w.extractLsb' 8 8⟩ ⟨w.extractLsb' 0 8⟩ = w := by
  refine BitVec.eq_of_toNat_eq ?_
  have hw := w.isLt
  have hhi : (UInt8.ofBitVec (w.extractLsb' 8 8)).toNat = (w.toNat >>> 8) % 256 :=
    BitVec.extractLsb'_toNat ..
  have hlo : (UInt8.ofBitVec (w.extractLsb' 0 8)).toNat = (w.toNat >>> 0) % 256 :=
    BitVec.extractLsb'_toNat ..
  rw [Word.ofBytes, hhi, hlo, BitVec.toNat_ofNat]
  omega

/-- The bytes of a list of words lead back to the words. -/
theorem readWords_bytes (ws : List Word) : readWords (bytes ws) = some ws := by
  induction ws with
  | nil => rfl
  | cons w ws ih =>
    have hcons : bytes (w :: ws) =
        ⟨w.extractLsb' 8 8⟩ :: ⟨w.extractLsb' 0 8⟩ :: bytes ws := rfl
    rw [hcons, readWords, ih, Option.map_some, Word.ofBytes_bytes]

end OnePass
