import Mathlib.Data.List.Chain
import Mathlib.Order.Defs.PartialOrder
import Mathlib.Tactic.Common

/-!
# Draining an ordered list page by page

A reader that takes a list in rounds, keeping only a position between them, has consumed the
list exactly when each round takes the items right after the position and leaves it after
the last item it took.  This file says that once, for an arbitrary position type: `Drains`
states what one round owes, and `Drains.complete` is what a run of rounds then delivers.

A round may pass over items (`keep` has no value for them) and may stop anywhere, as long as a
round that announces more has taken at least one item.  It may also fail, and what it owes
includes that it does not.
-/

namespace Paging

variable {σ α β μ : Type*}

/-- What one round of a paged reader leaves as its position, what it delivers, and whether it
announces more. -/
structure Round (σ β : Type*) where
  next : σ
  out : List β
  more : Bool

/-- The rounds of a reader whose `k`-th round is `step k`, up to the first one that announces no
more; `none` where one fails or the fuel runs out first. -/
def drain (step : ℕ → σ → Option (Round σ β)) : ℕ → σ → Option (List (Round σ β))
  | 0, _ => none
  | fuel + 1, s =>
      match step 0 s with
      | none => none
      | some round =>
          if round.more then
            (drain (fun k => step (k + 1)) fuel round.next).map (round :: ·)
          else some [round]

/-- What one round owes: it takes a prefix of what is left at its position and delivers what
`keep` makes of it; the prefix is not empty, and the mark moves on, when it announces more, and
it is everything when it does not. -/
structure Drains [LT μ] (rest : σ → List α) (keep : α → Option β) (mark : σ → μ)
    (step : σ → Option (Round σ β)) : Prop where
  total : ∀ s, ∃ round, step s = some round
  more : ∀ s round, step s = some round → round.more = true → mark s < mark round.next ∧
    ∃ p, p ≠ [] ∧ rest s = p ++ rest round.next ∧ round.out = p.filterMap keep
  done : ∀ s round, step s = some round → round.more = false →
    round.out = (rest s).filterMap keep

/-- A reader all of whose rounds give what they owe announces no more after finitely many of
them; on the way its mark only ever moves on; and what the rounds deliver together is everything
that was left, each item once, in order. -/
theorem Drains.complete [LT μ] {rest : σ → List α} {keep : α → Option β} {mark : σ → μ}
    {step : ℕ → σ → Option (Round σ β)} (h : ∀ k, Drains rest keep mark (step k)) (s : σ) :
    ∃ fuel before last,
      drain step fuel s = some (before ++ [last]) ∧
      (∀ round ∈ before, round.more = true) ∧ last.more = false ∧
      (mark s :: before.map fun round => mark round.next).IsChain (· < ·) ∧
      (before ++ [last]).flatMap Round.out = (rest s).filterMap keep := by
  -- Each announced round shortens what is left, so the induction is on its length.
  induction hlen : (rest s).length using Nat.strongRecOn generalizing s step with
  | _ len ih =>
      obtain ⟨round, hround⟩ := (h 0).total s
      cases hmore : round.more with
      | false =>
          refine ⟨1, [], round, by simp [drain, hround, hmore], by simp, hmore, by simp, ?_⟩
          simpa using (h 0).done s round hround hmore
      | true =>
          obtain ⟨hmark, p, hp, hrest, hout⟩ := (h 0).more s round hround hmore
          have hlt : (rest round.next).length < len := by
            rw [← hlen, hrest, List.length_append]
            have := List.length_pos_iff.2 hp
            omega
          obtain ⟨fuel, before, last, hdrain, hbefore, hlast, hchain, hall⟩ :=
            ih _ hlt (fun k => h (k + 1)) round.next rfl
          refine ⟨fuel + 1, round :: before, last, ?_, ?_, hlast, ?_, ?_⟩
          · simp [drain, hround, hmore, hdrain]
          · intro r hr
            rcases List.mem_cons.1 hr with rfl | hr
            · exact hmore
            · exact hbefore r hr
          · rw [List.map_cons]
            exact List.isChain_cons_cons.2 ⟨hmark, hchain⟩
          · rw [List.cons_append, List.flatMap_cons, hall, hout, hrest, List.filterMap_append]

end Paging
