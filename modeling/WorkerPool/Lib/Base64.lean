import Mathlib

/-!
# Base64

The standard alphabet with padding, as `b64encode` writes it and `b64decode` with `validate`
reads it.
-/

namespace Base64

def letter (n : Nat) : Char :=
  if n < 26 then Char.ofNat (65 + n)
  else if n < 52 then Char.ofNat (71 + n)
  else if n < 62 then Char.ofNat (n - 4)
  else if n = 62 then '+' else '/'

def value? (c : Char) : Option Nat :=
  if 'A' ≤ c ∧ c ≤ 'Z' then some (c.toNat - 65)
  else if 'a' ≤ c ∧ c ≤ 'z' then some (c.toNat - 71)
  else if '0' ≤ c ∧ c ≤ '9' then some (c.toNat + 4)
  else if c = '+' then some 62
  else if c = '/' then some 63
  else none

def encode : List UInt8 → List Char
  | a :: b :: c :: rest =>
    letter (a.toNat / 4) :: letter (a.toNat % 4 * 16 + b.toNat / 16) ::
      letter (b.toNat % 16 * 4 + c.toNat / 64) :: letter (c.toNat % 64) :: encode rest
  | [a, b] => [letter (a.toNat / 4), letter (a.toNat % 4 * 16 + b.toNat / 16),
      letter (b.toNat % 16 * 4), '=']
  | [a] => [letter (a.toNat / 4), letter (a.toNat % 4 * 16), '=', '=']
  | [] => []

def decode : List Char → Option (List UInt8)
  | a :: b :: c :: d :: rest => do
    let n ← value? a
    let m ← value? b
    if c = '=' ∧ d = '=' ∧ rest = [] then pure [UInt8.ofNat (n * 4 + m / 16)]
    else
      let k ← value? c
      if d = '=' ∧ rest = [] then
        pure [UInt8.ofNat (n * 4 + m / 16), UInt8.ofNat (m % 16 * 16 + k / 4)]
      else
        let l ← value? d
        let tail ← decode rest
        pure (UInt8.ofNat (n * 4 + m / 16) :: UInt8.ofNat (m % 16 * 16 + k / 4) ::
          UInt8.ofNat (k % 4 * 64 + l) :: tail)
  | [] => some []
  | _ => none

theorem value?_letter {n : Nat} (small : n < 64) : value? (letter n) = some n := by
  revert n
  decide

theorem letter_ne_pad {n : Nat} (small : n < 64) : letter n ≠ '=' := by
  revert n
  decide

/-- The first byte of a quantum out of its first two letters. -/
theorem first_byte (a b : UInt8) :
    UInt8.ofNat (a.toNat / 4 * 4 + (a.toNat % 4 * 16 + b.toNat / 16) / 16) = a := by
  have bound := b.toNat_lt
  have same : a.toNat / 4 * 4 + (a.toNat % 4 * 16 + b.toNat / 16) / 16 = a.toNat := by omega
  rw [same, UInt8.ofNat_toNat]

theorem second_byte (a b c : UInt8) :
    UInt8.ofNat ((a.toNat % 4 * 16 + b.toNat / 16) % 16 * 16 + (b.toNat % 16 * 4 + c.toNat / 64) / 4) =
      b := by
  have bound := b.toNat_lt
  have bound' := c.toNat_lt
  have same : (a.toNat % 4 * 16 + b.toNat / 16) % 16 * 16 + (b.toNat % 16 * 4 + c.toNat / 64) / 4 =
      b.toNat := by omega
  rw [same, UInt8.ofNat_toNat]

theorem third_byte (b c : UInt8) :
    UInt8.ofNat ((b.toNat % 16 * 4 + c.toNat / 64) % 4 * 64 + c.toNat % 64) = c := by
  have bound := c.toNat_lt
  have same : (b.toNat % 16 * 4 + c.toNat / 64) % 4 * 64 + c.toNat % 64 = c.toNat := by omega
  rw [same, UInt8.ofNat_toNat]

theorem decode_encode (bytes : List UInt8) : decode (encode bytes) = some bytes := by
  induction bytes using encode.induct with
  | case1 a b c rest ih =>
    have ha := a.toNat_lt
    have hb := b.toNat_lt
    have hc := c.toNat_lt
    rw [encode, decode, value?_letter (by omega), value?_letter (by omega), value?_letter (by omega),
      value?_letter (by omega), ih]
    simp only [letter_ne_pad (show b.toNat % 16 * 4 + c.toNat / 64 < 64 by omega),
      letter_ne_pad (show c.toNat % 64 < 64 by omega), false_and, if_false, Option.bind_eq_bind,
      Option.bind_some, first_byte, second_byte, third_byte]
    rfl
  | case2 a b =>
    have ha := a.toNat_lt
    have hb := b.toNat_lt
    have last := second_byte a b 0
    rw [encode, decode, value?_letter (by omega), value?_letter (by omega), value?_letter (by omega)]
    simp only [letter_ne_pad (show b.toNat % 16 * 4 < 64 by omega), false_and, if_false,
      Option.bind_eq_bind, Option.bind_some, first_byte, and_self, if_true]
    rw [show (0 : UInt8).toNat / 64 = 0 from rfl, Nat.add_zero] at last
    rw [last]
    rfl
  | case3 a =>
    have ha := a.toNat_lt
    have first := first_byte a 0
    rw [show (0 : UInt8).toNat / 16 = 0 from rfl, Nat.add_zero] at first
    rw [encode, decode, value?_letter (by omega), value?_letter (by omega)]
    simp only [Option.bind_eq_bind, Option.bind_some, and_self, if_true, first]
    rfl
  | case4 => rfl

/-- What holds of every letter and of the padding holds of the whole text. -/
theorem forall_encode {p : Char → Prop} (letters : ∀ n < 64, p (letter n)) (pad : p '=')
    (bytes : List UInt8) : ∀ c ∈ encode bytes, p c := by
  induction bytes using encode.induct with
  | case1 a b c rest ih =>
    have ha := a.toNat_lt
    have hb := b.toNat_lt
    have hc := c.toNat_lt
    simp only [encode, List.forall_mem_cons]
    exact ⟨letters _ (by omega), letters _ (by omega), letters _ (by omega), letters _ (by omega), ih⟩
  | case2 a b =>
    have ha := a.toNat_lt
    have hb := b.toNat_lt
    simp only [encode, List.forall_mem_cons]
    exact ⟨letters _ (by omega), letters _ (by omega), letters _ (by omega), pad,
      fun _ nobody => nomatch nobody⟩
  | case3 a =>
    have ha := a.toNat_lt
    simp only [encode, List.forall_mem_cons]
    exact ⟨letters _ (by omega), letters _ (by omega), pad, pad, fun _ nobody => nomatch nobody⟩
  | case4 => exact fun _ nobody => nomatch nobody

end Base64
