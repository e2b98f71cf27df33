import Chaskiwasi.Device.Retention

/-!
# A letter delivered again

A letter that could not be read whole is delivered with what could be had of it, and marked
degraded.  The wire promises that a later sync brings it clean.  The device checks a letter against
the seen ring before it looks at it, so the clean letter is passed over as long as the ring has the
id, and the degraded copy stays.

`healed_iff` says when the clean letter takes the place of the other, in any life of a device.
-/

namespace Chaskiwasi.Device

open Crash

/-- The response carries a letter undamaged, and no other one under its id. -/
def SyncResponse.CarriesClean (r : SyncResponse) (l : Letter) : Prop :=
  l ∈ r.letters ∧ l.degraded = false ∧ ∀ l' ∈ r.letters, l'.id = l.id → l' = l

namespace Engine

/-- What happens to a device, as far as its letters are concerned. -/
inductive Happening
  | boot (o : WriteOutcome)
  | read (id : String) (o : WriteOutcome)
  /-- A response is applied; where power is lost in it, the device boots. -/
  | sync (r : SyncResponse) (os : List WriteOutcome) (o : WriteOutcome)
  deriving DecidableEq, Repr

/-- What becomes of the device. -/
def live (keep : ℕ) (e : Engine) : Happening → Engine
  | .boot o => e.opened o
  | .read id o => { e with letters := (e.letters.markRead id o).1 }
  | .sync r os o =>
      match (applyResponse keep r).run [] e os with
      | .back _ _ e' _ => e'
      | .cut _ e' => e'.opened o

/-- The life of a device, from a boot on. -/
def life (keep : ℕ) (e : Engine) (o : WriteOutcome) (hs : List Happening) : Engine :=
  hs.foldl (live keep) (e.opened o)

/-- The mark that a letter was read, as the device has it. -/
def unread (e : Engine) (id : String) : Bool := FileLetterStore.unreadIn e.letters.index id

/-- The clean letter stands in the store, with the read mark it had. -/
def Healed (d e : Engine) (l : Letter) : Prop :=
  e.letters.get l.id = some ⟨l, d.unread l.id⟩

instance (d e : Engine) (l : Letter) : Decidable (Healed d e l) :=
  inferInstanceAs (Decidable (e.letters.get l.id = some ⟨l, d.unread l.id⟩))

/-- The response reaches the stored copy: the ring does not have the letter's id when its turn
comes, or the copy is clean already, and the copy is not evicted. -/
def CanHeal (keep : ℕ) (d : Engine) (r : SyncResponse) (l : Letter) : Prop :=
  (l.id ∈ (d.stored r).map Letter.id ∨ d.letters.get l.id = some ⟨l, d.unread l.id⟩) ∧
    (d.stored r = [] ∨ l.id ∈ newest keep d r)

variable {keep : ℕ} {d e : Engine} {r : SyncResponse} {l : Letter} {o : WriteOutcome}
  {hs : List Happening}

lemma kept_tidy : Outline.Kept fun e => e.letters.Tidy where
  clock := fun _ _ h => h
  resolve := fun _ _ _ _ h => h
  contacts := fun _ _ _ h => h
  state := fun _ _ _ h => h
  put := fun _ l o h => h.put l o
  add := fun _ _ _ h => h
  remove := fun _ id o h => h.remove id o
  settings := fun _ _ _ h => h

lemma tidy_live (h : e.letters.Tidy) (x : Happening) : (live keep e x).letters.Tidy := by
  cases x with
  | boot o => exact FileLetterStore.tidy_opened h.ascending
  | read id o => exact h.markRead id o
  | sync r os o =>
      have happlied := kept_of_applied kept_tidy h keep r os
      rw [live]
      cases hrun : (applyResponse keep r).run [] e os with
      | back out past e' rest =>
          rw [hrun] at happlied
          exact happlied
      | cut past e' =>
          rw [hrun] at happlied
          exact FileLetterStore.tidy_opened happlied.ascending

lemma tidy_life (h : Keyed.Ascending LetterFile.name d.letters.files) :
    (life keep d o hs).letters.Tidy := by
  suffices hfold : ∀ e : Engine, e.letters.Tidy → (hs.foldl (live keep) e).letters.Tidy from
    hfold _ (FileLetterStore.tidy_opened h)
  induction hs with
  | nil => exact fun _ he => he
  | cons x hs ih => exact fun e he => ih _ (tidy_live he x)

/-- In every life of a device: an application that succeeds puts the clean letter in the place of
the copy the device has, where it can heal it; and where no write fails, only then. -/
theorem healed_iff {out : Outcome} {past : List (Engine × WriteOutcome)}
    {os rest : List WriteOutcome}
    (hdir : Keyed.Ascending LetterFile.name d.letters.files)
    (hrun : (applyResponse keep r).run [] (life keep d o hs) os = .back out past e rest)
    (hout : out.applyIncomplete = false) (hclean : r.CarriesClean l) :
    (CanHeal keep (life keep d o hs) r l → Healed (life keep d o hs) e l) ∧
      (Unfailing past → Healed (life keep d o hs) e l → CanHeal keep (life keep d o hs) r l) := by
  have hthinned := copies_of_applied (tidy_life hdir) hrun hout
  generalize life keep d o hs = d at hthinned ⊢
  have hcopied : l.id ∈ (d.stored r).map Letter.id →
      d.letters.copied (d.stored r) l.id = some ⟨l, d.unread l.id⟩ := by
    intro hmem
    obtain ⟨l', hl', hid, hcopy⟩ := FileLetterStore.exists_copied (s := d.letters) hmem
    rw [hclean.2.2 l' (mem_of_mem_fresh hl') hid] at hcopy
    exact hcopy
  constructor
  · rintro ⟨hreach, hstays⟩
    rw [Healed, hthinned.copies l.id hstays]
    by_cases hmem : l.id ∈ (d.stored r).map Letter.id
    · exact hcopied hmem
    · rw [FileLetterStore.copied_of_not_mem hmem]
      exact hreach.resolve_left hmem
  · intro hpast hhealed
    have hstays : d.stored r = [] ∨ l.id ∈ newest keep d r := by
      by_contra hgone
      rw [not_or] at hgone
      rw [Healed, hthinned.gone hpast hgone.1 l.id hgone.2] at hhealed
      cases hhealed
    refine ⟨?_, hstays⟩
    by_cases hmem : l.id ∈ (d.stored r).map Letter.id
    · exact Or.inl hmem
    · rw [Healed, hthinned.copies l.id hstays, FileLetterStore.copied_of_not_mem hmem] at hhealed
      exact Or.inr hhealed

end Engine

namespace Sample

def smudgedLetter : Letter := ⟨"l-1", "rosa", "", 1700000000, "", false, false, true⟩

def wholeLetter : Letter := ⟨"l-1", "rosa", "", 1700000000, "hola", false, false, false⟩

def smudgedResponse : SyncResponse where
  cursor := "1:1"
  letters := [smudgedLetter]

def wholeResponse : SyncResponse where
  cursor := "1:1"
  letters := [wholeLetter]

/-- A device with a degraded copy that was read, and no seen file. -/
def forgetfulDevice : Engine where
  letters := ⟨[⟨"l-1", some ⟨smudgedLetter, false⟩⟩], []⟩
  seen := FileSeenRing.empty 1000
  contacts := ⟨⟨1, []⟩, ⟨1, []⟩⟩

/-- A new device. -/
def blankDevice : Engine where
  seen := FileSeenRing.empty 1000
  contacts := ⟨⟨0, []⟩, ⟨0, []⟩⟩

/-- The degraded letter is delivered and read. -/
def smudgedLife : List Engine.Happening :=
  [.sync smudgedResponse [.done, .done, .done] .done, .read "l-1" .done]

end Sample

namespace Engine

theorem healed_iff_forgetful :
    ∃ past e, (applyResponse 200 Sample.wholeResponse).run [] (life 200 Sample.forgetfulDevice
        .done []) [.done, .done, .done] = .back { lettersStored := 1 } past e [] ∧
      Healed (life 200 Sample.forgetfulDevice .done []) e Sample.wholeLetter := by
  have hrun : ∃ past e, (applyResponse 200 Sample.wholeResponse).run [] (life 200
      Sample.forgetfulDevice .done []) [.done, .done, .done] =
        .back { lettersStored := 1 } past e [] := ⟨_, _, rfl⟩
  have hdir : Keyed.Ascending LetterFile.name Sample.forgetfulDevice.letters.files :=
    List.pairwise_singleton _ _
  have hclean : Sample.wholeResponse.CarriesClean Sample.wholeLetter :=
    ⟨List.mem_singleton_self _, rfl, fun _ hl _ => List.mem_singleton.1 hl⟩
  obtain ⟨past, e, hrun⟩ := hrun
  exact ⟨past, e, hrun, (healed_iff hdir hrun rfl hclean).1
    ⟨Or.inl (by decide), Or.inr (by decide)⟩⟩

/-- The clean letter comes, is found in the ring, and is passed over. -/
theorem smudged_letter_stays :
    ¬ ∀ (keep : ℕ) (d : Engine) (o : WriteOutcome) (hs : List Happening) (r₀ r : SyncResponse)
        (os₀ os rest : List WriteOutcome) (o₀ : WriteOutcome) (l₀ l : Letter) (out : Outcome)
        (past : List (Engine × WriteOutcome)) (e : Engine),
      Keyed.Ascending LetterFile.name d.letters.files →
      Happening.sync r₀ os₀ o₀ ∈ hs → l₀ ∈ r₀.letters → l₀.degraded = true → l₀.id = l.id →
      r.CarriesClean l →
      (applyResponse keep r).run [] (life keep d o hs) os = .back out past e rest →
      out.applyIncomplete = false → Healed (life keep d o hs) e l := by
  intro h
  have hclean : Sample.wholeResponse.CarriesClean Sample.wholeLetter :=
    ⟨List.mem_singleton_self _, rfl, fun _ hl _ => List.mem_singleton.1 hl⟩
  have hhealed := h 200 Sample.blankDevice .done Sample.smudgedLife Sample.smudgedResponse
    Sample.wholeResponse [.done, .done, .done] [.done] [] .done Sample.smudgedLetter
    Sample.wholeLetter _ _ _ List.Pairwise.nil List.mem_cons_self (List.mem_singleton_self _) rfl
    rfl hclean rfl rfl
  revert hhealed
  decide

end Engine
end Chaskiwasi.Device
