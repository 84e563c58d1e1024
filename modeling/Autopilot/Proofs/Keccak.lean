/-
  Keccak-256 plane by plane, over natural numbers.

  The digest is defined by the places of lanes in a vector of machine words. Here a state is
  five planes of five natural numbers and a round goes along these lists, so that every number
  is met once. It is the same function (`digest_eq_byPlanes`): each layer agrees with its
  counterpart on the planes of a state. In this form the kernel evaluates the digest of a given
  byte string in a few seconds.
-/
import Autopilot.Keccak

namespace Autopilot.Keccak

/-! ## Places -/

theorem lane_ofFn (f : Fin 25 → UInt64) (x y : Nat) :
    lane (Vector.ofFn f) x y = f ⟨5 * (y % 5) + x % 5, by omega⟩ := by
  unfold lane
  have hlt : 5 * (y % 5) + x % 5 < (Vector.ofFn f).toArray.size := by
    rw [Vector.size_toArray]
    omega
  rw [Array.getD_eq_getD_getElem?, Array.getElem?_eq_getElem hlt, Option.getD_some,
    Vector.getElem_toArray, Vector.getElem_ofFn]

/-! ## Planes -/

/-- Five planes of five lanes. -/
abbrev Planes := List (List Nat)

namespace Planes

/-- The planes of a state. -/
def ofLanes (s : Lanes) : Planes :=
  (List.range 5).map fun y => (List.range 5).map fun x => (lane s x y).toNat

/-- The state with these planes. -/
def toLanes (s : Planes) : Lanes :=
  Vector.ofFn fun i => UInt64.ofNat ((s.getD (i.val / 5) []).getD (i.val % 5) 0)

theorem getD_ofLanes (s : Lanes) {x y : Nat} (hx : x < 5) (hy : y < 5) :
    ((ofLanes s).getD y []).getD x 0 = (lane s x y).toNat := by
  unfold ofLanes
  rw [List.getD_eq_getElem?_getD (l := (List.range 5).map _), List.getElem?_map,
    List.getElem?_range hy, Option.map_some, Option.getD_some, List.getD_eq_getElem?_getD,
    List.getElem?_map, List.getElem?_range hx, Option.map_some, Option.getD_some]

theorem toLanes_ofLanes (s : Lanes) : toLanes (ofLanes s) = s := by
  ext i hi
  unfold toLanes
  rw [Vector.getElem_ofFn, getD_ofLanes s (Nat.mod_lt _ (by decide)) (by omega),
    UInt64.ofNat_toNat]
  unfold lane
  have hplace : 5 * (i / 5 % 5) + i % 5 % 5 = i := by omega
  rw [hplace]
  simp [hi]

/-- Rotation of 64 bits towards the high end. -/
def rotl (w n : Nat) : Nat :=
  (w <<< n) % bitBound 64 ||| (w >>> (64 - n))

/-- Adds two planes. -/
def add (p q : List Nat) : List Nat :=
  List.zipWith (· ^^^ ·) p q

/-- Moves the first lane of a plane to its end. -/
def turn : List Nat → List Nat
  | [] => []
  | w :: rest => rest ++ [w]

/-- Adds to each plane the parities of the neighbouring columns. -/
def theta : Planes → Planes
  | [] => []
  | first :: rest =>
    let parities := rest.foldl add first
    let sums := add (turn (turn (turn (turn parities)))) ((turn parities).map (rotl · 1))
    (first :: rest).map (add · sums)

/-- The rotation amounts of the lanes. -/
def rhoOffsets : Planes := [
  [0, 1, 62, 28, 27],
  [36, 44, 6, 55, 20],
  [3, 10, 43, 25, 39],
  [41, 45, 15, 21, 8],
  [18, 2, 61, 56, 14]]

/-- Rotates each lane by its own amount. -/
def rho (s : Planes) : Planes :=
  List.zipWith (List.zipWith rotl) s rhoOffsets

/-- Moves the lanes to their new places. -/
def pi : Planes → Planes
  | [[a0, a1, a2, a3, a4], [b0, b1, b2, b3, b4], [c0, c1, c2, c3, c4], [d0, d1, d2, d3, d4],
      [e0, e1, e2, e3, e4]] =>
    [[a0, b1, c2, d3, e4], [a3, b4, c0, d1, e2], [a1, b2, c3, d4, e0], [a4, b0, c1, d2, e3],
      [a2, b3, c4, d0, e1]]
  | s => s

/-- Combines a lane with the two to its right. -/
def mix (a b c : Nat) : Nat :=
  a ^^^ ((bitBound 64 - 1 - b) &&& c)

/-- Combines each lane of a plane with the two to its right. -/
def chi : List Nat → List Nat
  | [a, b, c, d, e] => [mix a b c, mix b c d, mix c d e, mix d e a, mix e a b]
  | plane => plane

/-- Adds the round's constant to the first lane. -/
def iota (c : Nat) : Planes → Planes
  | (w :: plane) :: rest => ((w ^^^ c) :: plane) :: rest
  | s => s

/-- All 24 rounds. -/
def permute (s : Planes) : Planes :=
  (roundConstants.map UInt64.toNat).foldl (fun s c => iota c ((pi (rho (theta s))).map chi)) s

theorem toNat_rotl (w : UInt64) {n : UInt64} (h : n.toNat < 64) :
    (Keccak.rotl w n).toNat = rotl w.toNat n.toNat := by
  have hle : n ≤ 64 := UInt64.le_iff_toNat_le.mpr (Nat.le_of_lt h)
  have hsub : (64 - n).toNat = 64 - n.toNat := UInt64.toNat_sub_of_le _ _ hle
  unfold Keccak.rotl rotl
  rw [UInt64.toNat_or, UInt64.toNat_shiftLeft, UInt64.toNat_shiftRight, hsub, Nat.mod_eq_of_lt h]
  by_cases hzero : n.toNat = 0
  · rw [hzero]
    have hw : w.toNat >>> 64 = 0 := Nat.shiftRight_eq_zero _ _ w.toNat_lt
    simp [bitBound, hw]
  · rw [Nat.mod_eq_of_lt (show 64 - n.toNat < 64 by omega)]
    rfl

/-! ## The layers of a round -/

theorem theta_ofLanes (s : Lanes) : theta (ofLanes s) = ofLanes (Keccak.theta s) := by
  have hrotl : ∀ w : UInt64, (Keccak.rotl w 1).toNat = rotl w.toNat 1 := fun w =>
    toNat_rotl w (by decide)
  simp only [ofLanes, Keccak.theta, lane_ofFn, UInt64.toNat_xor, hrotl, Nat.xor_assoc]
  rfl

theorem pi_rho_ofLanes (s : Lanes) : pi (rho (ofLanes s)) = ofLanes (rhoPi s) := by
  have hoffset : ∀ place, (Keccak.rhoOffsets.getD place 0).toNat < 64 := by
    intro place
    by_cases hplace : place < 25
    · exact (by decide : ∀ i : Fin 25, (Keccak.rhoOffsets.getD i 0).toNat < 64) ⟨place, hplace⟩
    · have hout : Keccak.rhoOffsets[place]? = none :=
        Array.getElem?_eq_none (Nat.le_of_not_lt hplace)
      rw [Array.getD_eq_getD_getElem?, hout]
      decide
  simp only [ofLanes, rhoPi, lane_ofFn, toNat_rotl _ (hoffset _)]
  rfl

theorem chi_ofLanes (s : Lanes) : (ofLanes s).map chi = ofLanes (Keccak.chi s) := by
  have hnot : ∀ w : UInt64, (~~~w).toNat = bitBound 64 - 1 - w.toNat := fun w =>
    UInt64.toNat_not w
  simp only [ofLanes, Keccak.chi, lane_ofFn, UInt64.toNat_xor, UInt64.toNat_and, hnot]
  rfl

theorem iota_ofLanes (c : UInt64) (s : Lanes) :
    iota c.toNat (ofLanes s) = ofLanes (Keccak.iota c s) := by
  have hlane : ∀ x y, lane (Keccak.iota c s) x y =
      if 5 * (y % 5) + x % 5 = 0 then lane s 0 0 ^^^ c else lane s x y := by
    intro x y
    show (s.set 0 (lane s 0 0 ^^^ c)).toArray.getD (5 * (y % 5) + x % 5) 0 = _
    rw [Vector.toArray_set, Array.getD_eq_getD_getElem?, Array.getElem?_set]
    by_cases hplace : 5 * (y % 5) + x % 5 = 0
    · rw [if_pos hplace.symm, if_pos hplace]
      rfl
    · rw [if_neg (Ne.symm hplace), if_neg hplace, ← Array.getD_eq_getD_getElem?]
      rfl
  simp only [ofLanes, hlane]
  rfl

theorem permute_ofLanes (s : Lanes) : permute (ofLanes s) = ofLanes (Keccak.permute s) := by
  unfold permute Keccak.permute
  rw [List.foldl_map]
  induction Keccak.roundConstants generalizing s with
  | nil => rfl
  | cons c rest ih =>
    rw [List.foldl_cons, List.foldl_cons, theta_ofLanes, pi_rho_ofLanes, chi_ofLanes, iota_ofLanes]
    exact ih _

/-! ## The sponge -/

/-- The lane that eight bytes spell. -/
def laneOfBytes (bytes : List UInt8) : Nat :=
  bytes.foldr (fun b w => (w <<< 8) % bitBound 64 ||| b.toNat) 0

/-- Adds a block of the message to the state. -/
def addBlock (s : Planes) (block : List UInt8) : Planes :=
  s.zipIdx.map fun (plane, y) => plane.zipIdx.map fun (w, x) =>
    if 5 * y + x < 17 then w ^^^ laneOfBytes ((block.drop (8 * (5 * y + x))).take 8) else w

/-- Takes in the given number of blocks from the front of a padded message. -/
def absorb : (blocks : Nat) → List UInt8 → Planes → Planes
  | 0, _, s => s
  | n + 1, bytes, s => absorb n (bytes.drop rate) (addBlock s (bytes.take rate)).permute

theorem toNat_laneOfBytes (bytes : List UInt8) :
    (Keccak.laneOfBytes bytes).toNat = laneOfBytes bytes := by
  induction bytes with
  | nil => rfl
  | cons b rest ih =>
    show ((Keccak.laneOfBytes rest <<< 8) ||| b.toUInt64).toNat = _
    rw [UInt64.toNat_or, UInt64.toNat_shiftLeft, ih]
    rfl

theorem addBlock_ofLanes (s : Lanes) (block : List UInt8) :
    addBlock (ofLanes s) block = ofLanes (Keccak.addBlock s block.toArray) := by
  simp only [ofLanes, Keccak.addBlock, lane_ofFn, apply_ite UInt64.toNat, UInt64.toNat_xor,
    toNat_laneOfBytes, List.extract_toArray]
  rfl

theorem absorb_ofLanes (blocks : Nat) (bytes : List UInt8) (s : Lanes) :
    absorb blocks bytes (ofLanes s) = ofLanes (Keccak.absorb blocks bytes s) := by
  induction blocks generalizing bytes s with
  | zero => rfl
  | succ n ih =>
    unfold absorb Keccak.absorb
    rw [addBlock_ofLanes, permute_ofLanes, ih]

end Planes

/-- The digest, plane by plane. -/
def digestByPlanes (bytes : List UInt8) : BitVec 256 :=
  let length := bytes.length
  let final := Planes.absorb (length / rate + 1) (bytes ++ padding length)
    (List.replicate 5 (List.replicate 5 0))
  BitVec.ofNat 256 (ofBigEndian (squeeze final.toLanes))

theorem digest_eq_byPlanes (bytes : List UInt8) : digest bytes = digestByPlanes bytes := by
  have hstart : List.replicate 5 (List.replicate 5 0) =
    Planes.ofLanes (Vector.replicate 25 0) := rfl
  unfold digest digestByPlanes
  dsimp only
  rw [hstart, Planes.absorb_ofLanes, Planes.toLanes_ofLanes]

example : digest [] =
    0xc5d2460186f7233c927e7db2dcc703c0e500b653ca82273b7bfad8045d85a470 := by
  rw [digest_eq_byPlanes]
  decide +kernel

end Autopilot.Keccak
