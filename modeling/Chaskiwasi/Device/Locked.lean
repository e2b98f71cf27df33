import Chaskiwasi.Device.Screens

/-!
# The two locks: the PIN, and an empty battery

Three screens show nothing of what is on the device: the cover, the PIN screen and a fault.  While a
PIN is required, and while the battery is too low, the interface should stay on them.

It leaves them in one way.  A fault other than an empty battery can be dismissed, and its way back
is the inbox, wherever it came from: past a PIN that nobody entered, and past an empty battery when
another fault was raised over it.  Runs in which no such fault is dismissed are exactly the runs
that stay.
-/

namespace Chaskiwasi.Device

/-- The screens that show nothing of what is on the device. -/
def Screen.isGate (s : Screen) : Bool := s = .cover || s = .pin || s = .fault

/-- A fault that does not stand for an empty battery is dismissed. -/
def Dismisses (u : Ui) (act : UiAct) : Prop :=
  match act.event with
  | .key e => u.screen = .fault ∧ u.fault ≠ .chargeMe ∧ (e.key = .back ∨ e.key = .enter)
  | _ => False

instance (u : Ui) : ∀ act : UiAct, Decidable (Dismisses u act)
  | ⟨.key _, _⟩ => inferInstanceAs (Decidable (_ ∧ _ ∧ _))
  | ⟨.tick, _⟩ | ⟨.showFault .., _⟩ | ⟨.autosaveDraft, _⟩ | ⟨.background _, _⟩ =>
      inferInstanceAs (Decidable False)

/-- What the two locks depend on. -/
@[ext]
structure Lock where
  screen : Screen
  fault : FaultKind
  unlocked : Bool
  settings : Option Settings

namespace Ui

def lock (u : Ui) : Lock := ⟨u.screen, u.fault, u.unlocked, u.deps.settings⟩

/-! ## What painting and saving leave alone -/

section Frames

variable (u : Ui) (s : Screen) (r : Refresh) (e : KeyEvent) (io : UiIO)

@[simp] lemma lock_goTo : (u.goTo s).lock = { u.lock with screen := s } := by cases s <;> rfl

@[simp] lemma lock_rebuild : u.rebuild.lock = u.lock := rfl

@[simp] lemma lock_present : (u.present r).lock = u.lock := by
  unfold present
  dsimp only
  by_cases hpanel : u.rebuild.deps.panel = true
  · rw [if_pos hpanel]
    rfl
  · rw [if_neg hpanel]
    rfl

@[simp] lemma lock_autosaveDraft : (u.autosaveDraft io).lock = u.lock := by
  obtain ⟨drafts, lastSave, hsaved⟩ := u.autosaveDraft_eq io
  rw [hsaved]
  rfl

/-- A tick never changes the lock, but where the PIN was cleared. -/
lemma lock_tick (h : u.screen = .pin → u.pinRequired = true) : (u.tick io).lock = u.lock := by
  obtain ⟨⟨hscreen, hnot⟩, -⟩ | ⟨-, w, hw, hrest⟩ := u.tick_cases io
  · rw [h hscreen] at hnot
    cases hnot
  obtain ⟨drafts, lastSave, rfl⟩ := exists_eq_of_saved hw
  obtain ⟨-, htick⟩ | ⟨-, ⟨-, htick⟩ | ⟨-, htick⟩⟩ := hrest
  · rw [htick, lock_present]
    rfl
  · rw [htick, lock_present]
    rfl
  · rw [htick]
    rfl

lemma lock_showFault (k : FaultKind) (diagnostic : String) :
    (u.showFault k diagnostic).lock = { u.lock with screen := .fault, fault := k } := by
  rw [showFault, lock_present, lock_goTo]
  rfl

lemma lock_key [Layout] : (u.key e io).lock = ((u.touched e io).keyScreen e io).1.lock := by
  unfold key
  dsimp only
  split_ifs
  · exact lock_rebuild _
  · exact lock_present _ _

end Frames

/-! ## One event at the gate -/

variable {u v : Ui} {e : KeyEvent} {io : UiIO} {act : UiAct}

/-- The cover and the PIN screen open for nobody while the PIN is required and not entered. -/
lemma lock_keyCover (h : u.pinRequired = true) :
    (u.keyCover e).1.lock = u.lock ∨ (u.keyCover e).1.lock = { u.lock with screen := .pin } := by
  unfold keyCover
  by_cases hnone : e.key = .none
  · rw [if_pos hnone]
    exact Or.inl rfl
  · rw [if_neg hnone, if_pos h]
    exact Or.inr (lock_goTo _ _)

lemma lock_keyPin (h : io.verifyPin = false) : (u.keyPin e io).1.lock = u.lock := by
  unfold keyPin
  by_cases hbackoff : u.backoffUntil ≠ 0 ∧ io.now < u.backoffUntil
  · rw [if_pos hbackoff]
    rfl
  · rw [if_neg hbackoff]
    dsimp only
    cases e.key with
    | enter =>
        rw [h]
        rfl
    | char =>
        dsimp only
        split_ifs <;> rfl
    | none | up | down | left | right | back | putAway | sync | frontlight | erase => rfl

lemma lock_keyFault :
    (u.keyFault e).1.lock =
      if u.fault ≠ .chargeMe ∧ (e.key = .back ∨ e.key = .enter) then
        { u.lock with screen := .inbox, fault := .none }
      else u.lock := by
  unfold keyFault
  by_cases hcharge : u.fault = .chargeMe
  · simp [hcharge]
  · by_cases hkey : e.key = .back ∨ e.key = .enter
    · rw [if_neg hcharge, if_pos hkey, if_pos ⟨hcharge, hkey⟩, lock_goTo]
      rfl
    · rw [if_neg hcharge, if_neg hkey, if_neg fun h => hkey h.2]

/-- On a fault screen a key dismisses the fault, or does nothing to the lock. -/
lemma lock_key_of_fault [Layout] (h : u.screen = .fault) :
    (u.key e io).lock =
      if u.fault ≠ .chargeMe ∧ (e.key = .back ∨ e.key = .enter) then
        { u.lock with screen := .inbox, fault := .none }
      else u.lock := by
  have hscreen : (u.touched e io).keyScreen e io = (u.touched e io).keyFault e := by
    unfold keyScreen
    rw [show (u.touched e io).screen = .fault from h]
  rw [lock_key, hscreen, lock_keyFault]
  rfl

/-- The PIN is required, judged by the lock alone. -/
lemma pinRequired_of_lock (h : v.lock = { u.lock with screen := v.screen, fault := v.fault }) :
    v.pinRequired = u.pinRequired := by
  have hunlocked : v.unlocked = u.unlocked := congrArg Lock.unlocked h
  have hsettings : v.deps.settings = u.deps.settings := congrArg Lock.settings h
  rw [pinRequired, pinRequired, hunlocked, hsettings]

/-- While the PIN is required and not entered, a key on a screen that shows nothing leads to another
such screen, unless it dismisses a fault. -/
lemma lock_key_of_gate [Layout] (hgate : u.screen.isGate = true) (hpin : u.pinRequired = true)
    (hverify : io.verifyPin = false) (hstay : ¬ Dismisses u ⟨.key e, io⟩) :
    ∃ s : Screen, s.isGate = true ∧ (u.key e io).lock = { u.lock with screen := s } := by
  cases hscreen : u.screen with
  | cover =>
      have hkey : (u.touched e io).keyScreen e io = (u.touched e io).keyCover e := by
        unfold keyScreen
        rw [show (u.touched e io).screen = .cover from hscreen]
      rw [lock_key, hkey]
      rcases lock_keyCover (u := u.touched e io) (e := e) hpin with h | h
      · exact ⟨.cover, rfl, h.trans (by rw [← hscreen]; rfl)⟩
      · exact ⟨.pin, rfl, h⟩
  | pin =>
      have hkey : (u.touched e io).keyScreen e io = (u.touched e io).keyPin e io := by
        unfold keyScreen
        rw [show (u.touched e io).screen = .pin from hscreen]
      rw [lock_key, hkey, lock_keyPin hverify]
      exact ⟨.pin, rfl, by rw [← hscreen]; rfl⟩
  | fault =>
      rw [lock_key_of_fault hscreen, if_neg]
      · exact ⟨.fault, rfl, by rw [← hscreen]; rfl⟩
      · rintro ⟨hcharge, hback⟩
        exact hstay ⟨hscreen, hcharge, hback⟩
  | inbox | read | composePick | composeWrite | outbox | settings | draftConflict
  | settingsContacts | settingsLog | settingsAbout =>
      rw [hscreen] at hgate
      cases hgate

end Ui

/-! ## The PIN -/

/-- The PIN stays pushed, and `verify_pin` accepts no entry. -/
def KeepsPin (act : UiAct) : Prop :=
  act.io.verifyPin = false ∧
    ∀ deps, act.event = .background deps → deps.settings.any Settings.pinEnabled = true

/-- The interface shows nothing, and waits for the PIN. -/
def Ui.Locked (u : Ui) : Prop := u.screen.isGate = true ∧ u.pinRequired = true

section Pin

variable [Layout] {u u' : Ui} {act : UiAct} {acts : List UiAct}

omit [Layout] in
lemma Ui.Locked.of_lock {s : Screen} {k : FaultKind} (hu : u.Locked) (hs : s.isGate = true)
    (h : u'.lock = { u.lock with screen := s, fault := k }) : u'.Locked := by
  have hscreen : u'.screen = s := congrArg Lock.screen h
  have hfault : u'.fault = k := congrArg Lock.fault h
  have hrequired : u'.pinRequired = u.pinRequired :=
    Ui.pinRequired_of_lock (by rw [h, hscreen, hfault])
  exact ⟨hscreen.symm ▸ hs, hrequired.trans hu.2⟩

/-- One event: the lock holds unless a fault is dismissed, and a dismissed fault opens the inbox. -/
lemma Ui.Locked.step (hu : u.Locked) (hpin : KeepsPin act) (h : u.step act = some u') :
    (¬ Dismisses u act → u'.Locked) ∧ (Dismisses u act → u'.screen = .inbox) := by
  obtain ⟨event, io⟩ := act
  obtain rfl := Option.some.inj h
  cases event with
  | key e =>
      constructor
      · intro hstay
        obtain ⟨s, hs, hlock⟩ := lock_key_of_gate hu.1 hu.2 hpin.1 hstay
        exact hu.of_lock hs hlock
      · rintro ⟨hscreen, hcharge, hback⟩
        have hlock := @Ui.lock_key_of_fault u e io _ hscreen
        rw [if_pos ⟨hcharge, hback⟩] at hlock
        exact congrArg Lock.screen hlock
  | tick =>
      exact ⟨fun _ => hu.of_lock hu.1 (Ui.lock_tick u io fun _ => hu.2), fun hd => hd.elim⟩
  | showFault k diagnostic =>
      have hlock := Ui.lock_showFault u k diagnostic
      exact ⟨fun _ => hu.of_lock (s := .fault) rfl hlock, fun hd => hd.elim⟩
  | autosaveDraft =>
      exact ⟨fun _ => hu.of_lock hu.1 (Ui.lock_autosaveDraft u io), fun hd => hd.elim⟩
  | background deps =>
      refine ⟨fun _ => ⟨hu.1, ?_⟩, fun hd => hd.elim⟩
      have hunlocked : (!u.unlocked) = true := (Bool.and_eq_true_iff.1 hu.2).1
      show (!u.unlocked && deps.settings.any Settings.pinEnabled) = true
      rw [hunlocked, hpin.2 deps rfl]
      rfl

/-- The interface of a session that has just been opened. -/
def opened (deps : Deps) (initial : Screen) (io : UiIO) : Ui := Ui.start { deps := deps } initial io

omit [Layout] in
lemma locked_opened {deps : Deps} (hpin : deps.settings.any Settings.pinEnabled = true)
    (initial : Screen) (io : UiIO) : (opened deps initial io).Locked := by
  have hrequired : Ui.pinRequired { deps := deps, lastKey := io.now, lastSave := io.now } = true :=
    hpin
  have hlock : (opened deps initial io).lock = ⟨.pin, .none, false, deps.settings⟩ := by
    unfold opened Ui.start
    dsimp only
    rw [if_pos hrequired, Ui.lock_present, Ui.lock_goTo]
    rfl
  have hscreen : (opened deps initial io).screen = .pin := congrArg Lock.screen hlock
  have hunlocked : (opened deps initial io).unlocked = false := congrArg Lock.unlocked hlock
  have hsettings : (opened deps initial io).deps.settings = deps.settings :=
    congrArg Lock.settings hlock
  refine ⟨by rw [hscreen]; rfl, ?_⟩
  rw [Ui.pinRequired, hunlocked, hsettings, hpin]
  rfl

/-- The screens that a session opened under a pushed PIN comes to, while the PIN stays and nobody
enters it, show nothing. -/
def PinGateHolds : Prop :=
  ∀ (deps : Deps) (initial : Screen) (io : UiIO) (acts : List UiAct),
    deps.settings.any Settings.pinEnabled = true → (∀ act ∈ acts, KeepsPin act) →
    ∀ u ∈ Run.visits Ui.step (opened deps initial io) acts, u.screen.isGate = true

/-- **The PIN gate holds exactly while no fault is dismissed.**  In a session opened under a pushed
PIN, while the PIN stays pushed and no entry is accepted, every screen shows nothing if and only if
no fault but an empty battery's is dismissed. -/
theorem pin_gate_iff {deps : Deps} {initial : Screen} {io : UiIO}
    (hpin : deps.settings.any Settings.pinEnabled = true) (hacts : ∀ act ∈ acts, KeepsPin act) :
    (∀ u ∈ Run.visits Ui.step (opened deps initial io) acts, u.screen.isGate = true) ↔
      Run.Meets Ui.step (fun u act => ¬ Dismisses u act) (opened deps initial io) acts := by
  refine Run.forall_visits_iff_meets (I := Ui.Locked) (D := fun _ act => KeepsPin act)
    (fun u act => ⟨_, rfl⟩) (fun u act u' hu hact h => ?_) (fun u hu => hu.1)
    (locked_opened hpin initial io) (Run.meets_of_mem hacts)
  obtain ⟨hstay, hleave⟩ := hu.step hact h
  refine ⟨hstay, fun hgate hd => ?_⟩
  rw [hleave hd] at hgate
  cases hgate

end Pin

namespace Sample

/-- A layout that counts characters. -/
@[reducible]
def layout : Layout where
  countGraphemes := String.length
  truncateGraphemes := fun s n => (s.take n).toString
  eraseLastGrapheme := fun s => String.ofList s.toList.dropLast
  pages := fun _ _ => 1

/-- A device with a PIN and one letter. -/
def lockedDeps : Deps where
  letters := some ⟨[⟨⟨"l-0", "c_01", "hello", 0, "Come soon.", false, false, false⟩, true⟩]⟩
  settings := some { pinEnabled := true }

/-- The road is busy, and the child goes back. -/
def busyRoad : List UiAct := [⟨.showFault .roadBusy "", {}⟩, ⟨.key ⟨.back, 0⟩, {}⟩]

/-- A wrong PIN, a busy road, and another wrong PIN. -/
def guesses : List UiAct :=
  [⟨.key ⟨.char, 49⟩, {}⟩, ⟨.key ⟨.enter, 0⟩, {}⟩, ⟨.showFault .roadBusy "", {}⟩,
    ⟨.key ⟨.up, 0⟩, {}⟩, ⟨.tick, { now := 60000 }⟩]

end Sample

/-- A busy road leads past the PIN. -/
theorem fault_passes_pin : ¬ @PinGateHolds Sample.layout := by
  intro hclaim
  have heval : ∃ u ∈ Run.visits (@Ui.step Sample.layout)
      (opened Sample.lockedDeps .cover {}) Sample.busyRoad, u.screen = .inbox := by
    decide +kernel
  have hacts : ∀ act ∈ Sample.busyRoad, KeepsPin act := by
    intro act hact
    rcases List.mem_cons.1 hact with rfl | hact
    · exact ⟨rfl, fun deps h => by cases h⟩
    · obtain rfl := List.mem_singleton.1 hact
      exact ⟨rfl, fun deps h => by cases h⟩
  obtain ⟨u, hu, hinbox⟩ := heval
  have hgate := hclaim Sample.lockedDeps .cover {} Sample.busyRoad rfl hacts u hu
  rw [hinbox] at hgate
  cases hgate

/-- Whoever guesses sees nothing, and neither does whoever leaves the fault where it is. -/
theorem guesses_stay_locked : ∃ u, Run.run (@Ui.step Sample.layout)
    (opened Sample.lockedDeps .cover {}) Sample.guesses = some u ∧ u.screen.isGate = true := by
  have heval : ((Run.run (@Ui.step Sample.layout) (opened Sample.lockedDeps .cover {})
      Sample.guesses).any fun u => decide (u.screen = .fault)) = true := by
    decide +kernel
  have hacts : ∀ act ∈ Sample.guesses, KeepsPin act := by
    intro act hact
    have hquiet : act.io.verifyPin = false ∧ ∀ deps, act.event ≠ .background deps := by
      simp only [Sample.guesses, List.mem_cons, List.not_mem_nil, or_false] at hact
      rcases hact with rfl | rfl | rfl | rfl | rfl <;> exact ⟨rfl, by simp⟩
    exact ⟨hquiet.1, fun deps h => absurd h (hquiet.2 deps)⟩
  have hstay : Run.Meets (@Ui.step Sample.layout) (fun u act => ¬ Dismisses u act)
      (opened Sample.lockedDeps .cover {}) Sample.guesses := by
    decide +kernel
  have hlocked :=
    (@pin_gate_iff Sample.layout Sample.guesses Sample.lockedDeps .cover {} rfl hacts).2 hstay
  obtain ⟨u, hrun, -⟩ := Run.exists_of_any heval
  exact ⟨u, hrun, hlocked u (Run.mem_visits_of_run hrun)⟩

/-! ## An empty battery -/

section Battery

variable [Layout] {u u' : Ui} {act : UiAct} {acts : List UiAct}

/-- One event on a fault screen. -/
lemma Ui.step_of_fault (hu : u.screen = .fault) (h : u.step act = some u') :
    (¬ Dismisses u act → u'.screen = .fault) ∧ (Dismisses u act → u'.screen = .inbox) := by
  obtain ⟨event, io⟩ := act
  obtain rfl := Option.some.inj h
  cases event with
  | key e =>
      have hlock := @Ui.lock_key_of_fault u e io _ hu
      constructor
      · intro hstay
        rw [if_neg fun hd => hstay ⟨hu, hd.1, hd.2⟩] at hlock
        exact (congrArg Lock.screen hlock).trans hu
      · rintro ⟨-, hcharge, hback⟩
        rw [if_pos ⟨hcharge, hback⟩] at hlock
        exact congrArg Lock.screen hlock
  | tick =>
      have hpin : u.screen = .pin → u.pinRequired = true := by
        rw [hu]
        intro heq
        cases heq
      have hlock := congrArg Lock.screen (Ui.lock_tick u io hpin)
      exact ⟨fun _ => hlock.trans hu, fun hd => hd.elim⟩
  | showFault k diagnostic =>
      have hlock := congrArg Lock.screen (Ui.lock_showFault u k diagnostic)
      exact ⟨fun _ => hlock, fun hd => hd.elim⟩
  | autosaveDraft =>
      have hlock := congrArg Lock.screen (Ui.lock_autosaveDraft u io)
      exact ⟨fun _ => hlock.trans hu, fun hd => hd.elim⟩
  | background deps =>
      exact ⟨fun _ => hu, fun hd => hd.elim⟩

/-- After an empty battery was shown, and until the charger is reported, the screens show
nothing. -/
def ChargeMeRefuses : Prop :=
  ∀ (u : Ui) (diagnostic : String) (acts : List UiAct),
    (∀ act ∈ acts, act.io.about.any About.charging = false) →
    ∀ v ∈ Run.visits Ui.step (u.showFault .chargeMe diagnostic) acts, v.screen.isGate = true

/-- **Charge me refuses exactly while no other fault is dismissed.**  From whatever state an empty
battery is shown in, every screen shows nothing, whatever is said of the charger, if and only if no
other fault, raised over it, is dismissed. -/
theorem charge_me_iff (u : Ui) (diagnostic : String) (acts : List UiAct) :
    (∀ v ∈ Run.visits Ui.step (u.showFault .chargeMe diagnostic) acts, v.screen.isGate = true) ↔
      Run.Meets Ui.step (fun v act => ¬ Dismisses v act) (u.showFault .chargeMe diagnostic)
        acts := by
  have hfault : (u.showFault .chargeMe diagnostic).screen = .fault :=
    congrArg Lock.screen (Ui.lock_showFault u .chargeMe diagnostic)
  refine Run.forall_visits_iff_meets (I := fun v => v.screen = .fault) (D := fun _ _ => True)
    (fun v act => ⟨_, rfl⟩) (fun v act v' hv _ h => ?_) (fun v hv => by rw [hv]; rfl) hfault
    (Run.meets_of_mem fun _ _ => trivial)
  obtain ⟨hstay, hleave⟩ := Ui.step_of_fault hv h
  refine ⟨hstay, fun hgate hd => ?_⟩
  rw [hleave hd] at hgate
  cases hgate

end Battery

/-- A busy road leads past an empty battery. -/
theorem fault_passes_charge_me : ¬ @ChargeMeRefuses Sample.layout := by
  intro hclaim
  have heval : ∃ u ∈ Run.visits (@Ui.step Sample.layout)
      ((Ui.showFault { deps := Sample.lockedDeps } .chargeMe "")) Sample.busyRoad,
      u.screen = .inbox := by
    decide +kernel
  obtain ⟨u, hu, hinbox⟩ := heval
  have hgate := hclaim { deps := Sample.lockedDeps } "" Sample.busyRoad (by decide) u hu
  rw [hinbox] at hgate
  cases hgate

end Chaskiwasi.Device
