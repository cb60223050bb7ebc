import Mathlib.Algebra.Group.Nat.Defs
import Mathlib.Data.List.DropRight

namespace AiHiring.Library.Hex

def digit (n : ℕ) : Char := if n < 10 then Char.ofNat (48 + n) else Char.ofNat (87 + n)

def value (c : Char) : Option ℕ :=
  if 48 ≤ c.toNat ∧ c.toNat ≤ 57 then some (c.toNat - 48)
  else if 97 ≤ c.toNat ∧ c.toNat ≤ 102 then some (c.toNat - 87)
  else if 65 ≤ c.toNat ∧ c.toNat ≤ 70 then some (c.toNat - 55)
  else none

def ofNat : ℕ → ℕ → List Char
  | 0, _ => []
  | width + 1, n => ofNat width (n / 16) ++ [digit (n % 16)]

def toNat (text : List Char) : Option ℕ :=
  text.foldlM (fun n c => (value c).map fun v => n * 16 + v) 0

theorem value_digit {n : ℕ} (h : n < 16) : value (digit n) = some n := by
  have hall : ∀ n : Fin 16, value (digit n) = some n.val := by decide
  exact hall ⟨n, h⟩

theorem length_ofNat (width n : ℕ) : (ofNat width n).length = width := by
  induction width generalizing n with
  | zero => rfl
  | succ width ih => rw [ofNat, List.length_append, ih, List.length_singleton]

theorem mem_ofNat {width n : ℕ} {c : Char} (h : c ∈ ofNat width n) : ∃ d < 16, c = digit d := by
  induction width generalizing n with
  | zero => exact absurd h List.not_mem_nil
  | succ width ih =>
    obtain h | h := List.mem_append.mp h
    · exact ih h
    · exact ⟨n % 16, Nat.mod_lt n (by omega), List.mem_singleton.mp h⟩

theorem toNat_ofNat (width n : ℕ) : toNat (ofNat width n) = some (n % 16 ^ width) := by
  induction width generalizing n with
  | zero =>
    rw [Nat.pow_zero, Nat.mod_one]
    rfl
  | succ width ih =>
    have hprefix := ih (n / 16)
    unfold toNat at hprefix ⊢
    rw [ofNat, List.foldlM_append, hprefix]
    have hlast : n / 16 % 16 ^ width * 16 + n % 16 = n % 16 ^ (width + 1) := by
      rw [Nat.pow_succ, Nat.mul_comm (16 ^ width) 16, Nat.mod_mul]
      omega
    simp only [Option.bind_eq_bind, Option.bind_some, List.foldlM_cons, List.foldlM_nil,
      value_digit (Nat.mod_lt n (Nat.succ_pos 15)), Option.map_some, hlast]
    rfl

end AiHiring.Library.Hex

namespace AiHiring.Library.Base64

-- The URL-safe alphabet.
def digit (n : ℕ) : Char :=
  if n < 26 then Char.ofNat (65 + n)
  else if n < 52 then Char.ofNat (71 + n)
  else if n < 62 then Char.ofNat (n - 4)
  else if n = 62 then '-' else '_'

def value (c : Char) : Option ℕ :=
  if 65 ≤ c.toNat ∧ c.toNat ≤ 90 then some (c.toNat - 65)
  else if 97 ≤ c.toNat ∧ c.toNat ≤ 122 then some (c.toNat - 71)
  else if 48 ≤ c.toNat ∧ c.toNat ≤ 57 then some (c.toNat + 4)
  else if c = '-' ∨ c = '+' then some 62
  else if c = '_' ∨ c = '/' then some 63
  else none

def encode : List UInt8 → List Char
  | [] => []
  | [a] => [digit (a.toNat / 4), digit (a.toNat % 4 * 16), '=', '=']
  | [a, b] => [digit (a.toNat / 4), digit (a.toNat % 4 * 16 + b.toNat / 16),
      digit (b.toNat % 16 * 4), '=']
  | a :: b :: c :: rest =>
    digit (a.toNat / 4) :: digit (a.toNat % 4 * 16 + b.toNat / 16) ::
      digit (b.toNat % 16 * 4 + c.toNat / 64) :: digit (c.toNat % 64) :: encode rest

-- `quad` counts the digits of the group, `left` has the bits that are not out yet.
-- Other characters are skipped, and the padding of a group ends the text.
def decodeFrom : ℕ → ℕ → ℕ → List Char → Option (List UInt8)
  | quad, _, _, [] => if quad = 0 then some [] else none
  | quad, left, pads, c :: rest =>
    if c = '=' then
      if 2 ≤ quad then
        if 4 ≤ quad + (pads + 1) then some [] else decodeFrom quad left (pads + 1) rest
      else decodeFrom quad left pads rest
    else
      match value c with
      | none => decodeFrom quad left pads rest
      | some v =>
        match quad with
        | 0 => decodeFrom 1 v 0 rest
        | 1 => (decodeFrom 2 (v % 16) 0 rest).map (UInt8.ofNat (left * 4 + v / 16) :: ·)
        | 2 => (decodeFrom 3 (v % 4) 0 rest).map (UInt8.ofNat (left * 16 + v / 4) :: ·)
        | _ => (decodeFrom 0 0 0 rest).map (UInt8.ofNat (left * 64 + v) :: ·)

def decode (text : List Char) : Option (List UInt8) := decodeFrom 0 0 0 text

-- Without the padding at the end, and with it again.
def strip (text : List Char) : List Char := text.rdropWhile (· == '=')

def pad (text : List Char) : List Char :=
  text ++ List.replicate ((4 - text.length % 4) % 4) '='

theorem value_digit {n : ℕ} (h : n < 64) : value (digit n) = some n := by
  have hall : ∀ n : Fin 64, value (digit n) = some n.val := by decide
  exact hall ⟨n, h⟩

theorem digit_ne {n : ℕ} (h : n < 64) : digit n ≠ '=' ∧ digit n ≠ '.' ∧ (digit n).toNat < 128 := by
  have hall : ∀ n : Fin 64, digit n ≠ '=' ∧ digit n ≠ '.' ∧ (digit n).toNat < 128 := by decide
  exact hall ⟨n, h⟩

section Digit

variable {left pads n : ℕ} (h : n < 64) (rest : List Char)
include h

theorem decodeFrom_zero : decodeFrom 0 left pads (digit n :: rest) = decodeFrom 1 n 0 rest := by
  simp only [decodeFrom, if_neg (digit_ne h).1, value_digit h]

theorem decodeFrom_one : decodeFrom 1 left pads (digit n :: rest) =
    (decodeFrom 2 (n % 16) 0 rest).map (UInt8.ofNat (left * 4 + n / 16) :: ·) := by
  simp only [decodeFrom, if_neg (digit_ne h).1, value_digit h]

theorem decodeFrom_two : decodeFrom 2 left pads (digit n :: rest) =
    (decodeFrom 3 (n % 4) 0 rest).map (UInt8.ofNat (left * 16 + n / 4) :: ·) := by
  simp only [decodeFrom, if_neg (digit_ne h).1, value_digit h]

theorem decodeFrom_three : decodeFrom 3 left pads (digit n :: rest) =
    (decodeFrom 0 0 0 rest).map (UInt8.ofNat (left * 64 + n) :: ·) := by
  simp only [decodeFrom, if_neg (digit_ne h).1, value_digit h]

end Digit

theorem ofNat_eq {a : UInt8} {n : ℕ} (h : n = a.toNat) : UInt8.ofNat n = a := by
  rw [h, UInt8.ofNat_toNat]

theorem decode_encode (bytes : List UInt8) : decode (encode bytes) = some bytes := by
  unfold decode
  induction bytes using encode.induct with
  | case1 => rfl
  | case2 a =>
    have ha := a.toNat_lt
    have hfirst : UInt8.ofNat (a.toNat / 4 * 4 + a.toNat % 4 * 16 / 16) = a := ofNat_eq (by omega)
    rw [encode, decodeFrom_zero (by omega), decodeFrom_one (by omega), hfirst]
    rfl
  | case3 a b =>
    have ha := a.toNat_lt
    have hb := b.toNat_lt
    have hfirst : UInt8.ofNat (a.toNat / 4 * 4 + (a.toNat % 4 * 16 + b.toNat / 16) / 16) = a :=
      ofNat_eq (by omega)
    have hsecond : UInt8.ofNat ((a.toNat % 4 * 16 + b.toNat / 16) % 16 * 16 +
        b.toNat % 16 * 4 / 4) = b := ofNat_eq (by omega)
    rw [encode, decodeFrom_zero (by omega), decodeFrom_one (by omega),
      decodeFrom_two (by omega), hfirst, hsecond]
    rfl
  | case4 a b c rest ih =>
    have ha := a.toNat_lt
    have hb := b.toNat_lt
    have hc := c.toNat_lt
    have hfirst : UInt8.ofNat (a.toNat / 4 * 4 + (a.toNat % 4 * 16 + b.toNat / 16) / 16) = a :=
      ofNat_eq (by omega)
    have hsecond : UInt8.ofNat ((a.toNat % 4 * 16 + b.toNat / 16) % 16 * 16 +
        (b.toNat % 16 * 4 + c.toNat / 64) / 4) = b := ofNat_eq (by omega)
    have hthird : UInt8.ofNat ((b.toNat % 16 * 4 + c.toNat / 64) % 4 * 64 + c.toNat % 64) = c :=
      ofNat_eq (by omega)
    rw [encode, decodeFrom_zero (by omega), decodeFrom_one (by omega),
      decodeFrom_two (by omega), decodeFrom_three (by omega), hfirst, hsecond, hthird, ih]
    rfl

theorem encode_eq (bytes : List UInt8) : ∃ digits count, encode bytes =
    digits ++ List.replicate count '=' ∧ (∀ c ∈ digits, ∃ n < 64, c = digit n) ∧
      (4 - digits.length % 4) % 4 = count := by
  induction bytes using encode.induct with
  | case1 => exact ⟨[], 0, rfl, by simp, rfl⟩
  | case2 a =>
    have ha := a.toNat_lt
    refine ⟨[digit (a.toNat / 4), digit (a.toNat % 4 * 16)], 2, rfl, ?_, rfl⟩
    simp only [List.forall_mem_cons, List.not_mem_nil, false_imp_iff, implies_true, and_true]
    exact ⟨⟨_, by omega, rfl⟩, ⟨_, by omega, rfl⟩⟩
  | case3 a b =>
    have ha := a.toNat_lt
    have hb := b.toNat_lt
    refine ⟨[digit (a.toNat / 4), digit (a.toNat % 4 * 16 + b.toNat / 16),
      digit (b.toNat % 16 * 4)], 1, rfl, ?_, rfl⟩
    simp only [List.forall_mem_cons, List.not_mem_nil, false_imp_iff, implies_true, and_true]
    exact ⟨⟨_, by omega, rfl⟩, ⟨_, by omega, rfl⟩, ⟨_, by omega, rfl⟩⟩
  | case4 a b c rest ih =>
    have ha := a.toNat_lt
    have hb := b.toNat_lt
    have hc := c.toNat_lt
    obtain ⟨digits, count, heq, hdigits, hcount⟩ := ih
    refine ⟨digit (a.toNat / 4) :: digit (a.toNat % 4 * 16 + b.toNat / 16) ::
      digit (b.toNat % 16 * 4 + c.toNat / 64) :: digit (c.toNat % 64) :: digits, count,
      ?_, ?_, ?_⟩
    · rw [encode, heq]
      rfl
    · simp only [List.forall_mem_cons]
      exact ⟨⟨_, by omega, rfl⟩, ⟨_, by omega, rfl⟩, ⟨_, by omega, rfl⟩, ⟨_, by omega, rfl⟩,
        hdigits⟩
    · simp only [List.length_cons]
      omega

theorem strip_encode {digits : List Char} {count : ℕ} (h : ∀ c ∈ digits, ∃ n < 64, c = digit n) :
    strip (digits ++ List.replicate count '=') = digits := by
  induction count with
  | zero =>
    rw [List.replicate_zero, List.append_nil, strip]
    apply List.rdropWhile_eq_self_iff.mpr
    intro hne hlast
    obtain ⟨n, hn, heq⟩ := h _ (List.getLast_mem hne)
    rw [heq, beq_iff_eq] at hlast
    exact (digit_ne hn).1 hlast
  | succ count ih =>
    rw [List.replicate_succ', ← List.append_assoc, strip, List.rdropWhile_concat_pos _ _ _ rfl]
    exact ih

theorem pad_strip (bytes : List UInt8) : pad (strip (encode bytes)) = encode bytes := by
  obtain ⟨digits, count, heq, hdigits, hcount⟩ := encode_eq bytes
  rw [heq, strip_encode hdigits, pad, hcount]

theorem mem_strip_encode {bytes : List UInt8} {c : Char} (h : c ∈ strip (encode bytes)) :
    c ≠ '.' ∧ c.toNat < 128 := by
  obtain ⟨digits, count, heq, hdigits, -⟩ := encode_eq bytes
  rw [heq, strip_encode hdigits] at h
  obtain ⟨n, hn, rfl⟩ := hdigits c h
  exact (digit_ne hn).2

end AiHiring.Library.Base64
