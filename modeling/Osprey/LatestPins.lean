/-
**Whether the phone's pin for a machine is that of its latest pairing.**

Pairing writes the pin, forgetting removes it, and any number of calls run on models meanwhile, also
on models that the list no longer shows.  One of them writes to the store too: a `connect` whose
dial comes back stores the host that its model was made of, with the name that the machine has
given.  If the machine has been paired again or forgotten since, that puts the old pin back.  So
does a write that deletes the set and cannot add the new one, if the pin of an older build has
outlived its migration into the set.

Main definitions:

* `Osprey.Pins.Current` — every record is that of the latest pairing;
* `Osprey.Pins.SparesCurrent`, `Osprey.Pins.AdoptsCurrent`, `Osprey.AppModel.KeepsPinsCurrent` — the
  condition on a move.

Main results:

* `Osprey.Pins.current_save_iff`, `Osprey.Pins.current_remove_iff`,
  `Osprey.Pins.current_complete_iff` — what each operation of the store does to that;
* `Osprey.pins_current_iff` — **exactly which runs keep the pins current**.
-/

import Osprey.DeviceRuns
import Osprey.PhoneApp

set_option relaxedAutoImplicit false
set_option autoImplicit false

namespace Osprey

variable {F : Type}

/-! ### The operations of the store -/

namespace Pins

/-- The identity of every record is that of the latest pairing with its machine; a machine that has
been removed since then has no record. -/
def Current (pins : Pins) : Prop :=
  ∀ r ∈ pins.keychain.records, pins.latest r.agentDeviceId = some r.pinnedIdentity

/-- If an operation loses the set, the pin of an older build that there is beside it is that of the
latest pairing. -/
def SparesCurrent (pins : Pins) (answers : StoreAnswers) : Prop :=
  pins.keychain.Loses answers →
    ∀ r ∈ pins.keychain.spare, pins.latest r.agentDeviceId = some r.pinnedIdentity

/-- If a host is stored that is not newly paired, the latest pairing with it is the one that the
model was made of. -/
def AdoptsCurrent (pins : Pins) (answers : StoreAnswers) (host : PairedHost) : Prop :=
  pins.keychain.Stores answers → pins.latest host.agentDeviceId = some host.pinnedIdentity

instance (pins : Pins) : Decidable pins.Current :=
  inferInstanceAs (Decidable (∀ r ∈ _, _))

instance (pins : Pins) (answers : StoreAnswers) : Decidable (pins.SparesCurrent answers) :=
  inferInstanceAs (Decidable (_ → _))

instance (pins : Pins) (answers : StoreAnswers) (host : PairedHost) :
    Decidable (pins.AdoptsCurrent answers host) :=
  inferInstanceAs (Decidable (_ → _))

theorem not_loses_of_stores {answers : StoreAnswers} {keychain : Keychain}
    (h : keychain.Stores answers) : ¬keychain.Loses answers := by
  rintro ⟨-, message, hlost⟩
  cases h.2.symm.trans hlost

variable {pins : Pins} {answers : StoreAnswers}

theorem latest_congr {after : Pins} (h : after.history = pins.history) (agentDeviceId : String) :
    after.latest agentDeviceId = pins.latest agentDeviceId := by
  rw [latest, h, latest]

/-- After a loss, the pins are current exactly if what it has spared is. -/
theorem current_iff_of_loses (pins after : Pins)
    (hlost : pins.keychain.Loses answers)
    (hrecords : after.keychain.records = pins.keychain.spare)
    (hhistory : after.history = pins.history) :
    after.Current ↔ pins.SparesCurrent answers := by
  unfold Current SparesCurrent
  rw [hrecords]
  simp only [latest_congr hhistory]
  exact ⟨fun h _ => h, fun h => h hlost⟩

/-- What leaves the records and the history as they are leaves them current. -/
theorem current_congr (pins after : Pins)
    (hrecords : after.keychain.records = pins.keychain.records)
    (hhistory : after.history = pins.history) : after.Current ↔ pins.Current := by
  unfold Current
  rw [hrecords]
  simp only [latest_congr hhistory]

theorem sparesCurrent_of_not_loses (h : ¬pins.keychain.Loses answers) :
    pins.SparesCurrent answers :=
  fun hlost => absurd hlost h

/-- The store of a host under the name that it has given. -/
theorem current_save_iff (hpins : pins.Current)
    (hone : Keychain.OnePerMachine pins.keychain.records) (host : PairedHost) :
    (pins.save answers host).Current ↔
      pins.AdoptsCurrent answers host ∧ pins.SparesCurrent answers := by
  rcases pins.keychain.update_cases answers (Keychain.put host) with
    ⟨hstored, -, hrecords⟩ | ⟨hlost, -, hrecords⟩ | ⟨hnot, hkept, -, hrecords⟩
  · have hspares := sparesCurrent_of_not_loses (not_loses_of_stores hstored)
    have hrecords : (pins.save answers host).keychain.records =
        Keychain.put host pins.keychain.records := hrecords
    have hhistory : (pins.save answers host).history = pins.history := rfl
    unfold Current AdoptsCurrent
    rw [hrecords]
    simp only [latest_congr hhistory, Keychain.mem_put hone]
    constructor
    · intro h
      exact ⟨fun _ => h host (Or.inl rfl), hspares⟩
    · rintro ⟨hhost, -⟩ r (rfl | ⟨hr, -⟩)
      · exact hhost hstored
      · exact hpins r hr
  · rw [current_iff_of_loses pins (pins.save answers host) hlost hrecords rfl]
    exact ⟨fun h => ⟨fun hstored => absurd hlost (not_loses_of_stores hstored), h⟩, And.right⟩
  · rw [current_congr pins (pins.save answers host) hrecords rfl]
    exact iff_of_true hpins ⟨fun hstored => absurd hstored hnot, sparesCurrent_of_not_loses hkept⟩

/-- The removal of a record. -/
theorem current_remove_iff (hpins : pins.Current) (agentDeviceId : String) :
    (pins.remove answers agentDeviceId).2.Current ↔ pins.SparesCurrent answers := by
  have hcases := pins.keychain.update_cases answers
    fun hosts => hosts.filter fun host => host.agentDeviceId ≠ agentDeviceId
  unfold remove Keychain.remove
  generalize hupdated : pins.keychain.update answers
    (fun hosts => hosts.filter fun host => host.agentDeviceId ≠ agentDeviceId) = updated at hcases ⊢
  obtain ⟨result, keychain⟩ := updated
  rcases hcases with
    ⟨hstored, hok, hrecords⟩ | ⟨hlost, ⟨e, he⟩, hrecords⟩ | ⟨-, hkept, ⟨e, he⟩, hrecords⟩
  · cases hok
    refine iff_of_true ?_ (sparesCurrent_of_not_loses (not_loses_of_stores hstored))
    intro r hr
    have hr : r ∈ keychain.records := hr
    rw [hrecords, List.mem_filter] at hr
    obtain ⟨hr, hother⟩ := hr
    have hother : agentDeviceId ≠ r.agentDeviceId := fun h => of_decide_eq_true hother h.symm
    simp only [latest, latestPairing, if_neg hother]
    exact hpins r hr
  · cases he
    exact current_iff_of_loses pins ⟨keychain, pins.history⟩ hlost hrecords rfl
  · cases he
    exact (current_congr pins ⟨keychain, pins.history⟩ hrecords rfl).trans
      (iff_of_true hpins (sparesCurrent_of_not_loses hkept))

/-- The store of a host that has just been paired. -/
theorem current_complete_iff (hpins : pins.Current)
    (hone : Keychain.OnePerMachine pins.keychain.records) (host : PairedHost) :
    (pins.complete answers host).2.Current ↔ pins.SparesCurrent answers := by
  have hcases := pins.keychain.update_cases answers (Keychain.put host)
  unfold complete Keychain.save
  generalize hupdated : pins.keychain.update answers (Keychain.put host) = updated at hcases ⊢
  obtain ⟨result, keychain⟩ := updated
  rcases hcases with
    ⟨hstored, hok, hrecords⟩ | ⟨hlost, ⟨e, he⟩, hrecords⟩ | ⟨-, hkept, ⟨e, he⟩, hrecords⟩
  · cases hok
    refine iff_of_true ?_ (sparesCurrent_of_not_loses (not_loses_of_stores hstored))
    intro r hr
    have hr : r ∈ keychain.records := hr
    rw [hrecords, Keychain.mem_put hone] at hr
    rcases hr with rfl | ⟨hr, hother⟩
    · simp [latest, latestPairing]
    · simp only [latest, latestPairing, if_neg (Ne.symm hother)]
      exact hpins r hr
  · cases he
    exact current_iff_of_loses pins ⟨keychain, pins.history⟩ hlost hrecords rfl
  · cases he
    exact (current_congr pins ⟨keychain, pins.history⟩ hrecords rfl).trans
      (iff_of_true hpins (sparesCurrent_of_not_loses hkept))

/-- No operation gives a machine a second record. -/
theorem onePerMachine_update {keychain : Keychain} (h : Keychain.OnePerMachine keychain.records)
    {change : List PairedHost → List PairedHost}
    (hchange : ∀ hosts, Keychain.OnePerMachine hosts → Keychain.OnePerMachine (change hosts)) :
    Keychain.OnePerMachine (keychain.update answers change).2.records := by
  rcases keychain.update_cases answers change with
    ⟨-, -, hrecords⟩ | ⟨-, -, hrecords⟩ | ⟨-, -, -, hrecords⟩
  · rw [hrecords]
    exact hchange _ h
  · rw [hrecords]
    exact Keychain.onePerMachine_spare _
  · rw [hrecords]
    exact h

theorem onePerMachine_save (h : Keychain.OnePerMachine pins.keychain.records) (host : PairedHost) :
    Keychain.OnePerMachine (pins.save answers host).keychain.records :=
  onePerMachine_update h fun _ => Keychain.onePerMachine_put

theorem onePerMachine_remove (h : Keychain.OnePerMachine pins.keychain.records)
    (agentDeviceId : String) :
    Keychain.OnePerMachine (pins.remove answers agentDeviceId).2.keychain.records := by
  have hkeychain : (pins.remove answers agentDeviceId).2.keychain =
      (pins.keychain.remove answers agentDeviceId).2 := by
    unfold remove
    split <;> rename_i hremoved <;> rw [hremoved]
  rw [hkeychain]
  exact onePerMachine_update h fun _ => Keychain.onePerMachine_filter

theorem onePerMachine_complete (h : Keychain.OnePerMachine pins.keychain.records)
    (host : PairedHost) :
    Keychain.OnePerMachine (pins.complete answers host).2.keychain.records := by
  have hkeychain : (pins.complete answers host).2.keychain =
      (pins.keychain.save answers host).2 := by
    unfold complete
    split <;> rename_i hsaved <;> rw [hsaved]
  rw [hkeychain]
  exact onePerMachine_update h fun _ => Keychain.onePerMachine_put

/-- A deed of a model stores no host whose pairing is not the latest, and loses no set beside which
there is such a record. -/
def KeepsCurrent (pins : Pins) : PinDeed → Prop
  | .nothing => True
  | .adopt answers host => pins.AdoptsCurrent answers host ∧ pins.SparesCurrent answers
  | .remove answers _ => pins.SparesCurrent answers

instance (pins : Pins) (deed : PinDeed) : Decidable (pins.KeepsCurrent deed) := by
  unfold KeepsCurrent
  split <;> infer_instance

theorem current_apply_iff (hpins : pins.Current)
    (hone : Keychain.OnePerMachine pins.keychain.records) (deed : PinDeed) :
    (pins.apply deed).Current ↔ pins.KeepsCurrent deed := by
  cases deed with
  | nothing => exact iff_of_true hpins trivial
  | adopt answers host => exact current_save_iff hpins hone host
  | remove answers agentDeviceId => exact current_remove_iff hpins agentDeviceId

theorem onePerMachine_apply (h : Keychain.OnePerMachine pins.keychain.records) (deed : PinDeed) :
    Keychain.OnePerMachine (pins.apply deed).keychain.records := by
  cases deed with
  | nothing => exact h
  | adopt answers host => exact onePerMachine_save h host
  | remove answers agentDeviceId => exact onePerMachine_remove h agentDeviceId

end Pins

/-! ### Runs of the app -/

namespace AppModel

/-- A move stores no host whose pairing is not the latest, and loses no set beside which there is
such a record. -/
def KeepsPinsCurrent (s : AppModel F) : AppMove F → Prop
  | .paired _ (.ok _) saving _ => s.pins.SparesCurrent saving
  | .device k move _ => ∀ model ∈ s.models[k]?, s.pins.KeepsCurrent (model.pinDeed move)
  | _ => True

instance (s : AppModel F) (move : AppMove F) : Decidable (s.KeepsPinsCurrent move) := by
  unfold KeepsPinsCurrent
  split <;> infer_instance

theorem current_reloadDevices_iff (s : AppModel F) (answers : StoreAnswers) :
    (s.reloadDevices answers).pins.Current ↔ s.pins.Current := by
  obtain ⟨hhistory, hrecords⟩ := s.pins_reloadDevices answers
  exact Pins.current_congr s.pins _ hrecords hhistory

/-- **One move** keeps the pins current exactly if it meets the condition. -/
theorem current_step_iff {s t : AppModel F} {move : AppMove F} (hpins : s.pins.Current)
    (hone : Keychain.OnePerMachine s.pins.keychain.records) (h : s.step move = some t) :
    t.pins.Current ↔ s.KeepsPinsCurrent move := by
  cases move with
  | load outcome answers =>
      refine iff_of_true ?_ trivial
      cases h
      unfold load
      split
      · exact hpins
      · exact (current_reloadDevices_iff _ answers).mpr hpins
      · exact hpins
  | beginScanning =>
      cases h
      exact iff_of_true hpins trivial
  | cancelScanning =>
      cases h
      exact iff_of_true hpins trivial
  | pair scanned =>
      refine iff_of_true ?_ trivial
      cases h
      unfold pair
      split <;> exact hpins
  | paired i outcome saving reloading =>
      obtain ⟨payload, -, ⟨message, rfl, rfl⟩ | ⟨now, rfl, hcompleted⟩⟩ := paired_cases h
      · exact iff_of_true hpins trivial
      · have hiff : (s.pins.complete saving (payload.pin now)).2.Current ↔
            s.pins.SparesCurrent saving := Pins.current_complete_iff hpins hone (payload.pin now)
        rcases hcompleted with ⟨e, -, rfl⟩ | ⟨-, text, rfl⟩
        · exact hiff
        · exact (current_reloadDevices_iff _ reloading).trans hiff
  | device k move reloading =>
      obtain ⟨model, turned, hmodel, hturn, hcases⟩ := device_cases h
      have hpost := (DeviceTasks.posts_turn hturn).pins
      have hiff : turned.pins.Current ↔ s.KeepsPinsCurrent (.device k move reloading) := by
        rw [hpost, Pins.current_apply_iff hpins hone]
        simp [KeepsPinsCurrent, hmodel, DeviceTasks.pinDeed]
      rcases hcases with ⟨-, rfl⟩ | ⟨-, text, rfl⟩
      · exact hiff
      · exact (current_reloadDevices_iff _ reloading).trans hiff

theorem onePerMachine_reloadDevices {s : AppModel F}
    (h : Keychain.OnePerMachine s.pins.keychain.records) (answers : StoreAnswers) :
    Keychain.OnePerMachine (s.reloadDevices answers).pins.keychain.records := by
  rw [(s.pins_reloadDevices answers).2]
  exact h

/-- No move gives a machine a second record. -/
theorem onePerMachine_step {s t : AppModel F} {move : AppMove F}
    (hone : Keychain.OnePerMachine s.pins.keychain.records) (h : s.step move = some t) :
    Keychain.OnePerMachine t.pins.keychain.records := by
  cases move with
  | load outcome answers =>
      cases h
      unfold load
      split
      · exact hone
      · exact onePerMachine_reloadDevices (s := { s with identityState := .ready }) hone answers
      · exact hone
  | beginScanning =>
      cases h
      exact hone
  | cancelScanning =>
      cases h
      exact hone
  | pair scanned =>
      cases h
      unfold pair
      split <;> exact hone
  | paired i outcome saving reloading =>
      obtain ⟨payload, -, ⟨message, rfl, rfl⟩ | ⟨now, rfl, hcompleted⟩⟩ := paired_cases h
      · exact hone
      · have hcomplete : Keychain.OnePerMachine
            (s.pins.complete saving (payload.pin now)).2.keychain.records :=
          Pins.onePerMachine_complete hone (payload.pin now)
        rcases hcompleted with ⟨e, -, rfl⟩ | ⟨-, text, rfl⟩
        · exact hcomplete
        · exact onePerMachine_reloadDevices hcomplete reloading
  | device k move reloading =>
      obtain ⟨model, turned, -, hturn, hcases⟩ := device_cases h
      have happly := Pins.onePerMachine_apply hone
          ((model.deed move).pinDeed model.device move.answers)
      rw [← (DeviceTasks.posts_turn hturn).pins] at happly
      rcases hcases with ⟨-, rfl⟩ | ⟨-, text, rfl⟩
      · exact happly
      · exact onePerMachine_reloadDevices happly reloading

end AppModel

open AppModel in
/-- **When the phone's pins are those of the latest pairings.**  In a run of any pairings,
forgettings and calls on models, listed or not, every record is that of the latest pairing with its
machine, and no removed machine has one, in every state, exactly if no move stores a host whose
pairing is not the latest or loses a set beside which there is such a record. -/
theorem pins_current_iff {pins : Pins} (hpins : pins.Current)
    (hone : Keychain.OnePerMachine pins.keychain.records) {moves : List (AppMove F)}
    {s : AppModel F} (hrun : Transition.run step (launch pins) moves = some s) :
    (∀ done, done <+: moves → ∀ t, Transition.run step (launch pins) done = some t →
      t.pins.Current) ↔ Transition.Meets step KeepsPinsCurrent (launch pins) moves := by
  refine Transition.forall_states_iff_meets
    (A := fun s => Keychain.OnePerMachine s.pins.keychain.records)
    (I := fun s : AppModel F => s.pins.Current) ?_ ?_ hone hpins hrun
  · intro s move t hone hstep
    exact onePerMachine_step hone hstep
  · intro s move t hone hpins hstep
    exact current_step_iff hpins hone hstep

def toyPayload (b : UInt8) : ScannedPayload := ⟨"", "", "agent", toyBundle b, []⟩

def namedHello : HelloOkBody := { toyHello with displayName := some "den" }

/-- The operator pairs with a machine, connects to it, pairs again after the machine has changed its
keys, and forgets it. -/
def pairedAgain : List (AppMove Unit) :=
  [.load .ready .allDone, .pair (.ok (toyPayload 1)), .paired 0 (.ok 5) .allDone .allDone,
    .device 0 .connect .allDone, .device 0 (.dialled 0 (.ok namedHello) .allDone) .allDone,
    .pair (.ok (toyPayload 2)), .paired 1 (.ok 6) .allDone .allDone, .device 1 .unpair .allDone,
    .device 1 (.dialled 0 (.error "No route to host") .allDone) .allDone]

theorem pins_current_iff_pairedAgain : ∃ s : AppModel Unit,
    Transition.run AppModel.step (.launch ⟨⟨none, none⟩, []⟩) pairedAgain = some s ∧
      ∀ done, done <+: pairedAgain → ∀ t,
        Transition.run AppModel.step (.launch ⟨⟨none, none⟩, []⟩) done = some t →
          t.pins.Current := by
  have hrun : (Transition.run AppModel.step (AppModel.launch (F := Unit) ⟨⟨none, none⟩, []⟩)
      pairedAgain).isSome = true := by
    decide +kernel
  obtain ⟨s, hs⟩ := Option.isSome_iff_exists.mp hrun
  refine ⟨s, hs, (pins_current_iff ?_ ?_ hs).mpr ?_⟩
  · intro r hr
    cases hr
  · exact List.nodup_nil
  · decide +kernel

/-- The operator forgets a machine while it is being dialled, and then the dial comes back. -/
def forgottenInDial : List (AppMove Unit) :=
  [.load .ready .allDone, .pair (.ok (toyPayload 1)), .paired 0 (.ok 5) .allDone .allDone,
    .device 0 .connect .allDone, .device 0 .unpair .allDone,
    .device 0 (.dialled 1 (.error "No route to host") .allDone) .allDone,
    .device 0 (.dialled 0 (.ok namedHello) .allDone) .allDone]

/-- The machine's record has been removed and no pairing has been completed since, and there is
one. -/
theorem forgotten_pin_returns : ∃ s : AppModel Unit,
    Transition.run AppModel.step (.launch ⟨⟨none, none⟩, []⟩) forgottenInDial = some s ∧
      s.pins.latest "agent" = none ∧
      s.pins.keychain.records.map PairedHost.agentDeviceId = ["agent"] ∧ ¬s.pins.Current := by
  have hrun : ((Transition.run AppModel.step (AppModel.launch (F := Unit) ⟨⟨none, none⟩, []⟩)
      forgottenInDial).any fun s =>
        decide (s.pins.latest "agent" = none ∧
          s.pins.keychain.records.map PairedHost.agentDeviceId = ["agent"] ∧
          ¬s.pins.Current)) = true := by
    decide +kernel
  obtain ⟨s, hs, h⟩ := (Option.any_eq_true _ _).mp hrun
  exact ⟨s, hs, of_decide_eq_true h⟩

end Osprey
