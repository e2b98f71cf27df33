import Mathlib.Data.List.Basic
import Mathlib.Data.List.Induction
import Mathlib.Tactic.Common

/-!
# Absorbing a stream in blocks

An iterated hash function, and any other function of the kind, takes its input a block at a time:
`compress` makes a new state of a state and one block.  Written down once, on a whole message, that
is `absorb`.  Code has the message in pieces of any length, so it keeps the state after the last
whole block together with what it holds of the next one.

`push` takes one more symbol into such a pair and is all that the order of symbols means:
`foldl_push` says what a pair holds after a message, wherever its pieces began and ended.
-/

namespace Absorb

variable {α σ : Type*} (size : ℕ) (compress : σ → List α → σ)

/-! ## The whole message -/

/-- The whole blocks of a message, in order. -/
def blocks (message : List α) : List (List α) :=
  (List.range (message.length / size)).map fun i => (message.drop (i * size)).take size

def absorb (s : σ) (message : List α) : σ := (blocks size message).foldl compress s

variable {size compress} {message block : List α} {s : σ}

@[simp] lemma length_blocks : (blocks size message).length = message.length / size := by
  rw [blocks, List.length_map, List.length_range]

/-- A block more, after whole blocks. -/
lemma blocks_append (hsize : 0 < size) (hmessage : size ∣ message.length)
    (hblock : block.length = size) :
    blocks size (message ++ block) = blocks size message ++ [block] := by
  obtain ⟨n, hn⟩ := hmessage
  have hlen : (message ++ block).length / size = n + 1 := by
    rw [List.length_append, hn, hblock, ← Nat.mul_succ, Nat.mul_div_cancel_left _ hsize]
  have hlen' : message.length / size = n := by
    rw [hn, Nat.mul_div_cancel_left _ hsize]
  rw [blocks, hlen, List.range_succ, List.map_append, blocks, hlen', List.map_singleton]
  congr 1
  · apply List.map_congr_left
    intro i hi
    have hle : i * size + size ≤ message.length := by
      rw [hn, ← Nat.succ_mul, Nat.mul_comm size n]
      exact Nat.mul_le_mul_right size (List.mem_range.1 hi)
    rw [List.drop_append_of_le_length (by omega), List.take_append_of_le_length]
    rw [List.length_drop]
    omega
  · rw [show n * size = message.length by rw [hn, Nat.mul_comm], List.drop_left,
      List.take_of_length_le (Nat.le_of_eq hblock)]

lemma absorb_append (hsize : 0 < size) (hmessage : size ∣ message.length)
    (hblock : block.length = size) :
    absorb size compress s (message ++ block) =
      compress (absorb size compress s message) block := by
  rw [absorb, blocks_append hsize hmessage hblock, List.foldl_append]
  rfl

lemma length_of_mem_blocks (h : block ∈ blocks size message) : block.length = size := by
  obtain ⟨i, hi, rfl⟩ := List.mem_map.1 h
  have hi' : (i + 1) * size ≤ message.length :=
    Nat.le_trans (Nat.mul_le_mul_right size (List.mem_range.1 hi)) (Nat.div_mul_le_self _ _)
  rw [Nat.succ_mul] at hi'
  rw [List.length_take, List.length_drop]
  omega

/-- Only what `compress` does with a whole block counts. -/
lemma absorb_congr {f g : σ → List α → σ}
    (h : ∀ s block, block.length = size → f s block = g s block) (s : σ) (message : List α) :
    absorb size f s message = absorb size g s message := by
  have hblocks : ∀ bs : List (List α), (∀ b ∈ bs, b.length = size) → ∀ s,
      bs.foldl f s = bs.foldl g s := by
    intro bs
    induction bs with
    | nil => exact fun _ _ => rfl
    | cons b bs ih =>
        intro hbs s
        rw [List.foldl_cons, List.foldl_cons, h s b (hbs b List.mem_cons_self)]
        exact ih (fun b hb => hbs b (List.mem_cons_of_mem _ hb)) _
  exact hblocks _ (fun _ => length_of_mem_blocks) s

/-! ## One symbol at a time -/

variable (size compress)

/-- The state after the last whole block and what is held of the next, with one symbol more. -/
def push (st : σ × List α) (x : α) : σ × List α :=
  if st.2.length + 1 = size then (compress st.1 (st.2 ++ [x]), []) else (st.1, st.2 ++ [x])

variable {size compress}

/-- A piece that ends before the block does is kept. -/
lemma foldl_push_of_lt {held piece : List α} (h : held.length + piece.length < size) :
    piece.foldl (push size compress) (s, held) = (s, held ++ piece) := by
  induction piece generalizing held with
  | nil => rw [List.foldl_nil, List.append_nil]
  | cons x piece ih =>
      rw [List.length_cons] at h
      have hx : push size compress (s, held) x = (s, held ++ [x]) := by
        apply if_neg
        show ¬ held.length + 1 = size
        omega
      rw [List.foldl_cons, hx, ih (by rw [List.length_append, List.length_singleton]; omega),
        List.append_assoc, List.singleton_append]

/-- A piece that completes the block. -/
lemma foldl_push_of_eq {held piece : List α} (hpiece : piece ≠ [])
    (h : held.length + piece.length = size) :
    piece.foldl (push size compress) (s, held) = (compress s (held ++ piece), []) := by
  obtain ⟨most, last, rfl⟩ := List.eq_nil_or_concat piece |>.resolve_left hpiece
  rw [List.concat_eq_append, List.length_append, List.length_singleton] at h
  have hmost : most.foldl (push size compress) (s, held) = (s, held ++ most) :=
    foldl_push_of_lt (by omega)
  rw [List.concat_eq_append, List.foldl_append, hmost, List.foldl_cons, List.foldl_nil, push,
    if_pos (by rw [List.length_append]; omega), List.append_assoc]

/-- What a pair holds after a message: the state after its whole blocks, and the rest of it. -/
theorem foldl_push (hsize : 0 < size) (message : List α) :
    ∃ whole rest, message = whole ++ rest ∧ size ∣ whole.length ∧ rest.length < size ∧
      message.foldl (push size compress) (s, []) = (absorb size compress s whole, rest) := by
  induction message using List.reverseRecOn with
  | nil =>
      refine ⟨[], [], rfl, Nat.dvd_zero size, hsize, ?_⟩
      rw [absorb, blocks, List.length_nil, Nat.zero_div]
      rfl
  | append_singleton message x ih =>
      obtain ⟨whole, rest, hmessage, hwhole, hrest, heq⟩ := ih
      rw [List.foldl_append, heq, List.foldl_cons, List.foldl_nil, push]
      by_cases hfull : rest.length + 1 = size
      · have hblock : (rest ++ [x]).length = size := by
          rw [List.length_append, List.length_singleton, hfull]
        refine ⟨message ++ [x], [], (List.append_nil _).symm, ?_, hsize, ?_⟩
        · rw [hmessage, List.append_assoc, List.length_append, hblock]
          exact Nat.dvd_add hwhole (Nat.dvd_refl size)
        · rw [if_pos hfull, hmessage, List.append_assoc, absorb_append hsize hwhole hblock]
      · refine ⟨whole, rest ++ [x], ?_, hwhole, ?_, if_neg hfull⟩
        · rw [hmessage, List.append_assoc]
        · rw [List.length_append, List.length_singleton]
          omega

/-- A message of whole blocks is absorbed. -/
lemma foldl_push_whole (hsize : 0 < size) (h : size ∣ message.length) :
    message.foldl (push size compress) (s, []) = (absorb size compress s message, []) := by
  obtain ⟨whole, rest, hmessage, hwhole, hrest, heq⟩ :=
    foldl_push hsize message
  have hnil : rest = [] := by
    rw [hmessage, List.length_append] at h
    exact List.eq_nil_of_length_eq_zero
      (Nat.eq_zero_of_dvd_of_lt ((Nat.dvd_add_right hwhole).1 h) hrest)
  rw [heq, hnil, hmessage, hnil, List.append_nil]

/-- How much is held after a message. -/
lemma length_foldl_push (hsize : 0 < size) (message : List α) :
    (message.foldl (push size compress) (s, [])).2.length = message.length % size := by
  obtain ⟨whole, rest, hmessage, hwhole, hrest, heq⟩ :=
    foldl_push hsize message
  rw [heq, hmessage, List.length_append, Nat.add_mod, Nat.mod_eq_zero_of_dvd hwhole, Nat.zero_add,
    Nat.mod_mod, Nat.mod_eq_of_lt hrest]

end Absorb
