import Mathlib.Algebra.Group.Nat.Defs
import Mathlib.Data.List.Basic

/-!
# Big-endian fields and counted records

Numbers of a fixed width, most significant byte first, and readers that return what is left of the bytes. Reading undoes
writing: a field that fits its width is read back, and so is a sequence of records one of which is.
-/

namespace Codec

def encode : Nat → Nat → List UInt8
  | 0, _ => []
  | w + 1, v => encode w (v / 256) ++ [UInt8.ofNat v]

def value (bs : List UInt8) : Nat := bs.foldl (fun n b => n * 256 + b.toNat) 0

def read (w : Nat) (bs : List UInt8) : Option (Nat × List UInt8) :=
  if w ≤ bs.length then some (value (bs.take w), bs.drop w) else none

def readN {α : Type} (r : List UInt8 → Option (α × List UInt8)) : Nat → List UInt8 → Option (List α × List UInt8)
  | 0, bs => some ([], bs)
  | n + 1, bs => do
    let (a, bs) ← r bs
    let (as, bs) ← readN r n bs
    some (a :: as, bs)

@[simp] theorem length_encode (w v : Nat) : (encode w v).length = w := by
  induction w generalizing v with
  | zero => rfl
  | succ w ih => rw [encode, List.length_append, ih, List.length_singleton]

variable {w v : Nat}

theorem value_encode (h : v < 256 ^ w) : value (encode w v) = v := by
  induction w generalizing v with
  | zero =>
    rw [Nat.pow_zero] at h
    exact (Nat.lt_one_iff.1 h).symm
  | succ w ih =>
    have hdiv : v / 256 < 256 ^ w := Nat.div_lt_of_lt_mul (by rwa [Nat.pow_succ, Nat.mul_comm] at h)
    have hval : value (encode (w + 1) v) = value (encode w (v / 256)) * 256 + (UInt8.ofNat v).toNat :=
      List.foldl_append
    rw [hval, ih hdiv, UInt8.toNat_ofNat']
    omega

theorem read_encode (h : v < 256 ^ w) (rest : List UInt8) : read w (encode w v ++ rest) = some (v, rest) := by
  unfold read
  rw [if_pos (by rw [List.length_append, length_encode]; omega), List.take_left' (length_encode w v),
    List.drop_left' (length_encode w v), value_encode h]

variable {β : Type} {rest : List UInt8}

theorem bind_read_encode (h : v < 256 ^ w) {f : Nat × List UInt8 → Option β} :
    (read w (encode w v ++ rest) >>= f) = f (v, rest) := by
  rw [read_encode h]
  rfl

variable {α : Type} {r : List UInt8 → Option (α × List UInt8)}

theorem readN_encode {e : α → List UInt8} :
    ∀ {as : List α}, (∀ a ∈ as, ∀ rest, r (e a ++ rest) = some (a, rest)) → ∀ rest,
      readN r as.length ((as.map e).flatten ++ rest) = some (as, rest)
  | [], _, _ => rfl
  | a :: as, h, rest => by
    have ih := readN_encode (fun b hb => h b (List.mem_cons_of_mem _ hb)) rest
    rw [List.length_cons, readN, List.map_cons, List.flatten_cons, List.append_assoc, h a (List.mem_cons_self ..)]
    simp only [Option.bind_eq_bind, Option.bind_some, ih]

theorem length_of_read {bs : List UInt8} (h : read w bs = some (v, rest)) : bs.length = w + rest.length := by
  unfold read at h
  split at h
  · cases h
    rw [List.length_drop]
    omega
  · cases h

theorem length_of_readN {k : Nat}
    (hr : ∀ {bs a rest}, r bs = some (a, rest) → bs.length = k + rest.length) :
    ∀ {n : Nat} {bs : List UInt8} {as : List α} {rest : List UInt8}, readN r n bs = some (as, rest) →
      bs.length = k * n + rest.length
  | 0, bs, as, rest, h => by
    cases h
    rw [Nat.mul_zero, Nat.zero_add]
  | n + 1, bs, as, rest, h => by
    obtain ⟨⟨a, bs₁⟩, ha, h⟩ := Option.bind_eq_some_iff.1 h
    obtain ⟨⟨as', bs₂⟩, has, h⟩ := Option.bind_eq_some_iff.1 h
    cases h
    rw [hr ha, length_of_readN hr has, Nat.mul_succ]
    omega

theorem length_flatten_of_forall {bss : List (List UInt8)} {n : Nat} (h : ∀ bs ∈ bss, bs.length = n) :
    bss.flatten.length = n * bss.length := by
  induction bss with
  | nil => rfl
  | cons bs bss ih =>
    obtain ⟨hbs, hbss⟩ := List.forall_mem_cons.1 h
    rw [List.flatten_cons, List.length_append, hbs, ih hbss, List.length_cons, Nat.mul_succ, Nat.add_comm]

theorem mapM_map_eq_some {γ : Type} {f : β → Option γ} {g : α → β} {k : α → γ} {as : List α} :
    (as.map g).mapM f = some (as.map k) ↔ ∀ a ∈ as, f (g a) = some (k a) := by
  induction as with
  | nil => exact ⟨fun _ _ ha => absurd ha List.not_mem_nil, fun _ => rfl⟩
  | cons a as ih =>
    rw [List.map_cons, List.mapM_cons, List.map_cons, List.forall_mem_cons, ← ih]
    cases f (g a) <;> cases (as.map g).mapM f <;> simp

end Codec
