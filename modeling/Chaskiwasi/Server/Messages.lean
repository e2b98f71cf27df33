import Chaskiwasi.Server.Step

/-!
# The messages behind the letters

The letters of a response are derived one at a time, from messages fetched before, under whatever
contact table stands at that moment.  `World.Sourced R` follows the pairs through a sync: the
letters assembled so far, and those of every response given, stand in `R` to the messages behind
them, one for one and in order, when every derivation does.
-/

namespace Chaskiwasi

/-- The messages a sync has in hand. -/
def Sync.raws : Sync → List Raw
  | .deriving_ _ _ sources rest _ => sources ++ rest
  | .committing _ _ sources _ => sources
  | _ => []

/-- What a sync has assembled so far has a message in `R` behind each letter. -/
def Sync.Sourced (R : Raw → Letter → Prop) : Sync → Prop
  | .deriving_ _ asm sources _ _ => List.Forall₂ R sources asm.letters
  | .committing _ asm sources _ => List.Forall₂ R sources asm.letters
  | _ => True

structure World.Sourced (R : Raw → Letter → Prop) (w : World) : Prop where
  syncs : ∀ k pc, w.syncs k = some pc → pc.Sourced R
  log : ∀ k r, .responded k r ∈ w.log → List.Forall₂ R r.sources r.letters

section Sourced

variable {w v w' : World} {R : Raw → Letter → Prop}

lemma World.Sourced.setSync (h : w.Sourced R) {k : ℕ} {s : Option Sync}
    (hs : ∀ pc, s = some pc → pc.Sourced R) : (w.setSync k s).Sourced R where
  syncs := by
    intro j pc hpc
    by_cases hj : j = k
    · exact hs pc (by simpa [hj] using hpc)
    · exact h.syncs j pc (by simpa [hj] using hpc)
  log := h.log

lemma World.Sourced.of_eq (h : w.Sourced R) (hsyncs : v.syncs = w.syncs) (hlog : v.log = w.log) :
    v.Sourced R :=
  ⟨hsyncs ▸ h.syncs, hlog ▸ h.log⟩

variable [Runes] {cfg : Config}

/-- When every derivation from a message in hand is in `R`, so is what every response is made
of. -/
theorem step_sourced (h : w.Sourced R)
    (hR : ∀ k pc raw letter, w.syncs k = some pc → raw ∈ pc.raws →
      cfg.pipeline.derive w.table raw = .ok letter → R raw letter)
    {act : Act} (hstep : step cfg w act = some w') : w'.Sourced R := by
  cases worldStep_cases hstep with
  | arrived raw hfresh => exact ⟨h.syncs, fun k r hr => h.log k r (by simpa using hr)⟩
  | intoHeld | mutated | renumbered | called => exact h.of_eq rfl rfl
  | passed reply fresh io caller pc w' hpass hstep =>
      have hpass := passStep_cases hstep
      refine ⟨fun j pc hpc => ?_, fun k r hr => h.log k r (hpass.responded_mem hr)⟩
      rcases hpass.syncs_cases j with heq | ⟨-, -, hnone | hrec⟩
      · exact h.syncs j pc (heq ▸ hpc)
      · rw [hnone] at hpc
        cases hpc
      · rw [hrec] at hpc
        unfold World.reconciled at hpc
        split at hpc
        · obtain rfl := Option.some.inj hpc
          exact trivial
        · cases hpc
  | requested k cursor hnone =>
      exact h.setSync fun pc heq => by obtain rfl := Option.some.inj heq; exact trivial
  | synced k reply skeleton pc w' hpc hsync =>
      have hand := h.syncs k pc hpc
      cases hsync with
      | failed => exact h.setSync (by simp)
      | started | assembling =>
          exact h.setSync fun pc heq => by obtain rfl := Option.some.inj heq; exact trivial
      | called cursor bound hfree =>
          refine World.Sourced.setSync (w := w.goto (.sync k) (.list bound)) (h.of_eq rfl rfl)
            fun pc heq => ?_
          obtain rfl := Option.some.inj heq
          exact trivial
      | fetched =>
          refine h.setSync fun pc heq => ?_
          obtain rfl := Option.some.inj heq
          exact List.Forall₂.nil
      | through | skipped | stopped =>
          refine h.setSync fun pc heq => ?_
          obtain rfl := Option.some.inj heq
          exact hand
      | derived uidValidity asm sources raw rest capped letter budget hderive =>
          refine h.setSync fun pc heq => ?_
          obtain rfl := Option.some.inj heq
          have hraw := hR k _ raw letter hpc (by simp [Sync.raws]) hderive
          exact List.rel_append hand (List.Forall₂.cons hraw List.Forall₂.nil)
      | responded uidValidity asm sources more =>
          refine ⟨fun j pc hj => ?_, fun j r hr => ?_⟩
          · exact (h.setSync (k := k) (s := none) (by simp)).syncs j pc hj
          · rcases List.mem_cons.1 hr with heq | hr
            · obtain ⟨rfl, rfl⟩ := Note.responded.inj heq
              exact hand
            · exact h.log j r hr

end Sourced
end Chaskiwasi
