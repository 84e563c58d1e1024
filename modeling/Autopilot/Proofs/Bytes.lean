/-
  Numbers and texts as byte strings, in both directions.

  A byte string of a given length and the number below `256 ^ length` that it denotes
  determine each other (`ofBigEndian_bigEndian`, `bigEndian_ofBigEndian`); so do a word or an
  address and its bytes. A text and its UTF-8 bytes determine each other (`ofUtf8?_eq_some_iff`).
-/
import Autopilot.Word
import Mathlib.Tactic.Ring

namespace Autopilot

/-! ## Numbers -/

theorem foldl_bytes (bytes : List UInt8) (start : Nat) :
    bytes.foldl (fun n b => n * 256 + b.toNat) start =
      start * 256 ^ bytes.length + ofBigEndian bytes := by
  unfold ofBigEndian
  induction bytes generalizing start with
  | nil => simp
  | cons b bytes ih =>
    rw [List.foldl_cons, List.foldl_cons, ih, ih (0 * 256 + b.toNat), List.length_cons,
      Nat.pow_succ]
    ring

theorem ofBigEndian_cons (b : UInt8) (bytes : List UInt8) :
    ofBigEndian (b :: bytes) = b.toNat * 256 ^ bytes.length + ofBigEndian bytes := by
  calc ofBigEndian (b :: bytes)
      = (0 * 256 + b.toNat) * 256 ^ bytes.length + ofBigEndian bytes :=
        foldl_bytes bytes (0 * 256 + b.toNat)
    _ = b.toNat * 256 ^ bytes.length + ofBigEndian bytes := by rw [Nat.zero_mul, Nat.zero_add]

theorem ofBigEndian_lt (bytes : List UInt8) : ofBigEndian bytes < 256 ^ bytes.length := by
  induction bytes with
  | nil => decide
  | cons b bytes ih =>
    have hb : b.toNat + 1 ≤ 256 := b.toNat_lt
    rw [ofBigEndian_cons, List.length_cons, Nat.pow_succ, Nat.mul_comm (256 ^ bytes.length)]
    calc b.toNat * 256 ^ bytes.length + ofBigEndian bytes
        < b.toNat * 256 ^ bytes.length + 256 ^ bytes.length := Nat.add_lt_add_left ih _
      _ = (b.toNat + 1) * 256 ^ bytes.length := by ring
      _ ≤ 256 * 256 ^ bytes.length := Nat.mul_le_mul_right _ hb

/-- Byte strings of one length that denote one number are the same. -/
theorem ofBigEndian_inj {xs ys : List UInt8} (hlength : xs.length = ys.length)
    (h : ofBigEndian xs = ofBigEndian ys) : xs = ys := by
  induction xs generalizing ys with
  | nil => exact (List.length_eq_zero_iff.mp hlength.symm).symm
  | cons x xs ih =>
    cases ys with
    | nil => cases hlength
    | cons y ys =>
      have htail : xs.length = ys.length := Nat.succ.inj hlength
      rw [ofBigEndian_cons, ofBigEndian_cons, htail] at h
      have hx := ofBigEndian_lt xs
      have hy := ofBigEndian_lt ys
      rw [htail] at hx
      have hpos : 0 < 256 ^ ys.length := Nat.pow_pos (by decide)
      -- the first byte is the quotient by the weight of the first place, the rest the remainder
      have hquotient := congrArg (· / 256 ^ ys.length) h
      have hremainder := congrArg (· % 256 ^ ys.length) h
      simp only [Nat.mul_comm _ (256 ^ ys.length), Nat.mul_add_div hpos, Nat.div_eq_of_lt hx,
        Nat.div_eq_of_lt hy, Nat.add_zero] at hquotient
      simp only [Nat.mul_comm _ (256 ^ ys.length), Nat.mul_add_mod, Nat.mod_eq_of_lt hx,
        Nat.mod_eq_of_lt hy] at hremainder
      rw [UInt8.toNat_inj.mp hquotient, ih htail hremainder]

theorem ofBigEndian_bigEndian_mod (n v : Nat) : ofBigEndian (bigEndian n v) = v % 256 ^ n := by
  induction n with
  | zero =>
    rw [Nat.pow_zero, Nat.mod_one]
    rfl
  | succ n ih =>
    have hweight : 2 ^ (8 * n) = 256 ^ n := by
      rw [Nat.pow_mul]
    have hsplit : v % (256 ^ n * 256) = v % 256 ^ n + 256 ^ n * (v / 256 ^ n % 256) :=
      Nat.mod_mul
    unfold bigEndian
    rw [ofBigEndian_cons, ih, length_bigEndian, Nat.shiftRight_eq_div_pow, hweight,
      UInt8.toNat_ofNat', Nat.pow_succ 256, hsplit, Nat.mul_comm, Nat.add_comm]

theorem ofBigEndian_bigEndian {n v : Nat} (h : v < 256 ^ n) :
    ofBigEndian (bigEndian n v) = v := by
  rw [ofBigEndian_bigEndian_mod, Nat.mod_eq_of_lt h]

theorem bigEndian_ofBigEndian (bytes : List UInt8) :
    bigEndian bytes.length (ofBigEndian bytes) = bytes := by
  refine ofBigEndian_inj (length_bigEndian _ _) ?_
  exact ofBigEndian_bigEndian (ofBigEndian_lt bytes)

theorem bigEndian_inj {n v w : Nat} (hv : v < 256 ^ n) (hw : w < 256 ^ n)
    (h : bigEndian n v = bigEndian n w) : v = w := by
  rw [← ofBigEndian_bigEndian hv, h, ofBigEndian_bigEndian hw]

/-! ## Bytes -/

theorem toNat_ofNat_of_le {n : Nat} (h : n ≤ 255) : (UInt8.ofNat n).toNat = n := by
  rw [UInt8.toNat_ofNat', Nat.mod_eq_of_lt (by omega)]

theorem ofNat_toNat_uint16 (n : UInt16) : UInt16.ofNat n.toNat = n := by
  simp

/-! ## Words and addresses -/

theorem length_wordBytes (w : Word) : (wordBytes w).length = 32 :=
  length_bigEndian _ _

theorem length_addressBytes (a : Address) : (addressBytes a).length = 20 :=
  length_bigEndian _ _

theorem wordOfBytes_wordBytes (w : Word) : wordOfBytes (wordBytes w) = w := by
  unfold wordOfBytes wordBytes
  rw [ofBigEndian_bigEndian (by simpa using w.isLt), BitVec.ofNat_toNat, BitVec.setWidth_eq]

theorem wordBytes_inj {v w : Word} (h : wordBytes v = wordBytes w) : v = w := by
  rw [← wordOfBytes_wordBytes v, h, wordOfBytes_wordBytes]

theorem wordBytes_wordOfBytes {bytes : List UInt8} (h : bytes.length = 32) :
    wordBytes (wordOfBytes bytes) = bytes := by
  have hlt := ofBigEndian_lt bytes
  rw [h] at hlt
  unfold wordBytes wordOfBytes
  rw [BitVec.toNat_ofNat, Nat.mod_eq_of_lt (by simpa using hlt), ← h]
  exact bigEndian_ofBigEndian bytes

theorem addressOfBytes_addressBytes (a : Address) : addressOfBytes (addressBytes a) = a := by
  unfold addressOfBytes addressBytes
  rw [ofBigEndian_bigEndian (by simpa using a.isLt), BitVec.ofNat_toNat, BitVec.setWidth_eq]

theorem addressBytes_addressOfBytes {bytes : List UInt8} (h : bytes.length = 20) :
    addressBytes (addressOfBytes bytes) = bytes := by
  have hlt := ofBigEndian_lt bytes
  rw [h] at hlt
  unfold addressBytes addressOfBytes
  rw [BitVec.toNat_ofNat, Nat.mod_eq_of_lt (by simpa using hlt), ← h]
  exact bigEndian_ofBigEndian bytes

/-! ## Texts -/

theorem length_utf8 (s : String) : (utf8 s).length = s.utf8ByteSize := by
  unfold utf8
  rw [Array.length_toList, ByteArray.size_data, String.size_toByteArray]

theorem ofUtf8?_eq_some_iff {bytes : List UInt8} {s : String} :
    ofUtf8? bytes = some s ↔ bytes = utf8 s := by
  unfold ofUtf8? String.fromUTF8?
  constructor
  · intro h
    split at h
    · cases h
      rfl
    · cases h
  · rintro rfl
    have hbytes : (⟨(utf8 s).toArray⟩ : ByteArray) = s.toByteArray := rfl
    rw [hbytes, dif_pos s.isValidUTF8]
    rfl

theorem utf8_inj {s t : String} (h : utf8 s = utf8 t) : s = t := by
  have hs : ofUtf8? (utf8 s) = some s := ofUtf8?_eq_some_iff.mpr rfl
  have ht : ofUtf8? (utf8 t) = some t := ofUtf8?_eq_some_iff.mpr rfl
  rw [h, ht] at hs
  exact (Option.some.inj hs).symm

/-! ## Parts of a list -/

theorem takeExactly?_eq_some_iff {α : Type} {n : Nat} {xs front rest : List α} :
    takeExactly? n xs = some (front, rest) ↔ front.length = n ∧ xs = front ++ rest := by
  constructor
  · intro h
    induction n generalizing xs front with
    | zero =>
      cases h
      exact ⟨rfl, rfl⟩
    | succ n ih =>
      cases xs with
      | nil => cases h
      | cons x xs =>
        unfold takeExactly? at h
        obtain ⟨⟨front', rest'⟩, htail, hcons⟩ := Option.map_eq_some_iff.mp h
        cases hcons
        obtain ⟨hlength, happend⟩ := ih htail
        exact ⟨congrArg (· + 1) hlength, congrArg (x :: ·) happend⟩
  · rintro ⟨rfl, rfl⟩
    exact takeExactly?_append front rest

theorem takeExactly?_eq_none_iff {α : Type} {n : Nat} {xs : List α} :
    takeExactly? n xs = none ↔ xs.length < n := by
  induction n generalizing xs with
  | zero => simp [takeExactly?]
  | succ n ih =>
    cases xs with
    | nil => simp [takeExactly?]
    | cons x xs => simp [takeExactly?, ih]

end Autopilot
