import Mathlib.Tactic

/-!
# Big-endian fields

A byte string is read from the front. `put` writes the low octets of a number, most significant
first; `get` reads them back and returns what follows.
-/

namespace Eigrp.Lib

/-- The low `n` octets of a number, most significant first. -/
def put : Nat → Nat → List UInt8
  | 0, _ => []
  | n + 1, value => UInt8.ofNat (value / 256 ^ n) :: put n value

/-- The number that octets spell, most significant first. -/
def number (bytes : List UInt8) : Nat := bytes.foldl (fun value byte => value * 256 + byte.toNat) 0

/-- A field of `n` octets and the octets after it. -/
def get (n : Nat) (bytes : List UInt8) : Option (Nat × List UInt8) :=
  if n ≤ bytes.length then some (number (bytes.take n), bytes.drop n) else none

@[simp] theorem put_length (n value : Nat) : (put n value).length = n := by
  induction n with
  | zero => rfl
  | succ n ih => simp [put,ih]

/-- The accumulator of `number` is the more significant part. -/
private theorem foldl_put (n value high : Nat) :
    (put n value).foldl (fun value byte => value * 256 + byte.toNat) high = high * 256 ^ n + value % 256 ^ n := by
  induction n generalizing high with
  | zero => simp [put,Nat.mod_one]
  | succ n ih =>
    have digits : value % 256 ^ (n + 1) = value / 256 ^ n % 256 * 256 ^ n + value % 256 ^ n := by
      rw [pow_succ, Nat.mod_mul, Nat.mul_comm, Nat.add_comm]
    rw [put, List.foldl_cons, ih, digits]
    simp only [UInt8.toNat_ofNat']
    ring

theorem number_put (n value : Nat) : number (put n value) = value % 256 ^ n := by
  simp [number,foldl_put]

/-- Reading back what was written gives the number reduced to the width, and leaves the rest. -/
@[simp] theorem get_put (n value : Nat) (rest : List UInt8) :
    get n (put n value ++ rest) = some (value % 256 ^ n, rest) := by
  have width : (put n value).length = n := put_length n value
  unfold get
  rw [if_pos (by simp [width]), List.take_left' width, List.drop_left' width, number_put]

theorem number_cons (byte : UInt8) (bytes : List UInt8) :
    number (byte :: bytes) = byte.toNat * 256 ^ bytes.length + number bytes := by
  have shifted (bytes : List UInt8) (high : Nat) :
      bytes.foldl (fun value byte => value * 256 + byte.toNat) high = high * 256 ^ bytes.length + number bytes := by
    induction bytes generalizing high with
    | nil => simp [number]
    | cons byte bytes ih =>
      have head : number (byte :: bytes) = (0 * 256 + byte.toNat) * 256 ^ bytes.length + number bytes := ih _
      rw [List.foldl_cons, ih, head, List.length_cons, pow_succ]
      ring
  have head : number (byte :: bytes) = (0 * 256 + byte.toNat) * 256 ^ bytes.length + number bytes := shifted bytes _
  rw [head]
  ring

theorem number_lt (bytes : List UInt8) : number bytes < 256 ^ bytes.length := by
  induction bytes with
  | nil => simp [number]
  | cons byte bytes ih =>
    have byte_lt : byte.toNat < 256 := byte.toNat_lt
    rw [number_cons, List.length_cons, pow_succ]
    nlinarith

/-- Only the low octets of a number are written. -/
theorem put_add (n high value : Nat) : put n (high * 256 ^ n + value) = put n value := by
  induction n generalizing high with
  | zero => rfl
  | succ n ih =>
    have split : high * 256 ^ (n + 1) + value = high * 256 * 256 ^ n + value := by ring
    rw [put, put, split, ih]
    congr 1
    rw [Nat.add_comm, Nat.add_mul_div_right _ _ (by positivity)]
    apply UInt8.toNat.inj
    simp only [UInt8.toNat_ofNat']
    omega

/-- Writing back what was read gives the octets again. -/
theorem put_number (bytes : List UInt8) : put bytes.length (number bytes) = bytes := by
  induction bytes with
  | nil => rfl
  | cons byte bytes ih =>
    have low : number bytes / 256 ^ bytes.length = 0 := Nat.div_eq_of_lt (number_lt bytes)
    rw [number_cons, List.length_cons, put, put_add, ih]
    congr 1
    rw [Nat.add_comm, Nat.add_mul_div_right _ _ (by positivity), low, Nat.zero_add, UInt8.ofNat_toNat]

/-- A field is what the octets begin with, and fits its width. -/
theorem put_get {n value : Nat} {bytes rest : List UInt8} (read : get n bytes = some (value, rest)) :
    put n value ++ rest = bytes ∧ value < 256 ^ n := by
  unfold get at read
  split at read
  · rename_i enough
    cases read
    have length : (bytes.take n).length = n := by simp [enough]
    have octets := put_number (bytes.take n)
    have bound := number_lt (bytes.take n)
    rw [length] at octets bound
    exact ⟨by rw [octets, List.take_append_drop],bound⟩
  · cases read

end Eigrp.Lib
