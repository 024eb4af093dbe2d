import JsWaku.Lib.Reading
import Mathlib.Tactic.Ring

/-!
# Protocol buffer values

The values of the protocol buffer format: varints of seven bits a byte, lowest first, the zigzag numbering of signed
numbers, and bytes after their length. Each writer has a `Reads` lemma for its reader, and a lemma that the reader moves
on.
-/

namespace Protobuf

open Reading

variable {ε α : Type} (e : ε)

/-! ## Bytes -/

/-- The next byte. -/
def byte : Reader ε UInt8 := fun buf pos =>
  match buf[pos]? with
  | some b => .ok (b, pos + 1)
  | none => .error e

/-- The next `n` bytes. -/
def take (n : ℕ) : Reader ε (List UInt8) := fun buf pos =>
  if pos + n ≤ buf.length then .ok ((buf.drop pos).take n, pos + n) else .error e

/-- A failure. -/
def fail : Reader ε α := fun _ _ => .error e

theorem reads_byte (b : UInt8) : Reads (byte e) [b] b := by
  intro before after
  simp [byte]

theorem progress_byte : Progress (byte e) := by
  intro buf pos b pos' h
  rw [byte] at h
  split at h
  · cases h
    exact Nat.lt_succ_self pos
  · cases h

theorem reads_take {bs : List UInt8} {n : ℕ} (h : n = bs.length) : Reads (take e n) bs bs := by
  intro before after
  subst h
  rw [take, if_pos (by simp only [List.length_append]; omega)]
  simp

theorem forward_take (n : ℕ) : Forward (take e n) := by
  intro buf pos bs pos' h
  rw [take] at h
  split at h
  · cases h
    exact Nat.le_add_right pos n
  · cases h

theorem forward_fail : Forward (fail e : Reader ε α) := by
  intro buf pos a pos' h
  cases h

/-! ## Varints -/

/-- A varint of at most `k + 1` bytes. -/
def writeVarint : ℕ → ℕ → List UInt8
  | 0, n => [UInt8.ofNat n]
  | k + 1, n => if n < 128 then [UInt8.ofNat n] else UInt8.ofNat (128 + n % 128) :: writeVarint k (n / 128)

/-- Reads a varint of at most `k + 1` bytes. -/
def readVarint : ℕ → Reader ε ℕ
  | 0 => do
    let b ← byte e
    if b.toNat < 128 then return b.toNat else fail e
  | k + 1 => do
    let b ← byte e
    if b.toNat < 128 then return b.toNat
    else do
      let rest ← readVarint k
      return b.toNat - 128 + 128 * rest

/-- The last byte of a varint. -/
theorem reads_last {n : ℕ} (hn : n < 128) (r : ℕ → Reader ε ℕ) : Reads (do
    let b ← byte e
    if b.toNat < 128 then return b.toNat else r b.toNat) [UInt8.ofNat n] n := by
  have hb : (UInt8.ofNat n).toNat = n := by
    rw [UInt8.toNat_ofNat']
    omega
  intro before after
  refine bind_eq_ok.2 ⟨UInt8.ofNat n, before.length + 1, reads_byte e _ before after, ?_⟩
  rw [hb, if_pos hn]
  rfl

/-- **A varint is read back.** -/
theorem reads_varint (k : ℕ) {n : ℕ} (hn : n < 128 ^ (k + 1)) : Reads (readVarint e k) (writeVarint k n) n := by
  induction k generalizing n with
  | zero => exact reads_last e (by simpa using hn) fun _ => fail e
  | succ k ih =>
    by_cases hlt : n < 128
    · rw [writeVarint, if_pos hlt]
      exact reads_last e hlt fun b => do return b - 128 + 128 * (← readVarint e k)
    · have hrest : n / 128 < 128 ^ (k + 1) := by
        rw [Nat.div_lt_iff_lt_mul (by decide)]
        rwa [pow_succ] at hn
      have hb : (UInt8.ofNat (128 + n % 128)).toNat = 128 + n % 128 := by
        rw [UInt8.toNat_ofNat']
        omega
      rw [writeVarint, if_neg hlt, ← List.singleton_append]
      refine (reads_byte e _).bind ?_
      rw [hb, if_neg (by omega)]
      have hmap := (ih hrest).map fun rest => 128 + n % 128 - 128 + 128 * rest
      rwa [show 128 + n % 128 - 128 + 128 * (n / 128) = n by omega] at hmap

theorem progress_varint (k : ℕ) : Progress (readVarint e k) := by
  induction k with
  | zero =>
    refine (progress_byte e).bind fun b => ?_
    split
    · exact Forward.pure _
    · exact forward_fail e
  | succ k ih =>
    refine (progress_byte e).bind fun b => ?_
    split
    · exact Forward.pure _
    · exact ih.forward.bind fun rest => Forward.pure _

/-! ## Signed numbers -/

/-- The zigzag number of a signed number. -/
def zigzag (v : ℤ) : ℕ := if 0 ≤ v then 2 * v.toNat else 2 * (-v).toNat - 1

/-- The signed number of a zigzag number. -/
def unzigzag (n : ℕ) : ℤ := if n % 2 = 0 then n / 2 else -((n + 1) / 2)

@[simp] theorem unzigzag_zigzag (v : ℤ) : unzigzag (zigzag v) = v := by
  unfold unzigzag zigzag
  split <;> split <;> omega

/-- Signed numbers of `w + 1` bits. -/
theorem zigzag_lt {v : ℤ} {w : ℕ} (hmin : -2 ^ w ≤ v) (hmax : v < 2 ^ w) : zigzag v < 2 ^ (w + 1) := by
  have hpow : ((2 ^ w : ℕ) : ℤ) = 2 ^ w := by push_cast; rfl
  unfold zigzag
  rw [pow_succ]
  split <;> omega

/-! ## Bytes after their length -/

/-- Bytes after their length. -/
def delimited (k : ℕ) (bs : List UInt8) : List UInt8 := writeVarint k bs.length ++ bs

/-- Reads a length and as many bytes. -/
def readDelimited (k : ℕ) : Reader ε (List UInt8) := readVarint e k >>= take e

theorem reads_delimited (k : ℕ) {bs : List UInt8} (h : bs.length < 128 ^ (k + 1)) :
    Reads (readDelimited e k) (delimited k bs) bs := (reads_varint e k h).bind (reads_take e rfl)

theorem forward_delimited (k : ℕ) : Forward (readDelimited e k) := (progress_varint e k).forward.bind (forward_take e)

end Protobuf
