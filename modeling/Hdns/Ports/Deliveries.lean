import Hdns.Ports.Worker

/-!
# Concurrent webhook deliveries

Every request to a worker task runs `save` on its own payload, with no lock
between the requests, so the files of two deliveries can be written in any
order.  A delivery is a batch of writes in the sense of `Overwrite`: the files
and their order depend on the action alone, so it is enough that no write is
late.

## Main results

* `deliveries_do_not_mix` — once all deliveries have returned, the output set
  comes from one payload, when no write has failed or been late.
-/

namespace Hdns.Ports.Deliveries

open Hdns.Verified
open Hdns.Verified.GoString
open Hdns.Verified.Overwrite (outcome batches)
open Hdns.Ports.Webhook
open Hdns.Ports.Worker

/-- The files and the deliveries as batches of writes, with the payload of
each delivery. -/
structure State where
  batches : Overwrite.State GoString GoString
  payloads : Nat → Option Payload

/-- Before any delivery. -/
def start (files : Files) : State :=
  ⟨Overwrite.start files, fun _ => none⟩

/-- A label: a request arrives whose `save` can succeed, a delivery carries out
its next file write, or a write fails and ends the delivery. -/
inductive Label where
  | deliver (i : Nat) (payload : Payload)
  | write (i : Nat)
  | fail (i : Nat)
  deriving DecidableEq

section Deliveries

variable (decodeString : GoString → Except GoString GoString)
  (action : SaveAction)

/-- A label as one of the batches. -/
def Label.batch : Label → Except SaveError (Overwrite.Label GoString GoString)
  | .deliver i payload =>
      (saveWrites decodeString action payload).map (.arrive i)
  | .write i => .ok (.write i)
  | .fail i => .ok (.abort i)

/-- The payloads after a label. -/
def State.payloadsAfter (s : State) : Label → Nat → Option Payload
  | .deliver i payload => Function.update s.payloads i (some payload)
  | _ => s.payloads

/-- The machine of concurrent deliveries to one task. -/
def deliveries : Machine State Label where
  step s a :=
    match a.batch decodeString action with
    | .ok b => (batches.step s.batches b).map fun t => ⟨t, s.payloadsAfter a⟩
    | .error _ => none

/-- All deliveries have returned. -/
def State.Quiescent (s : State) : Prop := s.batches.Quiescent

/-- **The condition**: no write fails, and no delivery writes a file that a
delivery which has begun to write after it has already written. -/
def InOrder (s : State) : Label → Prop
  | .deliver _ _ => True
  | .write i => ∀ job, s.batches.jobs i = some job →
      ∀ j job', s.batches.jobs j = some job' → job.Later job' →
        job'.done.length ≤ job.done.length
  | .fail _ => False

/-- The output set holds what `save` writes for one of the payloads. -/
def FromOne (s : State) : Prop :=
  ∃ i payload ws, s.payloads i = some payload ∧
    saveWrites decodeString action payload = .ok ws ∧
    ∀ p ∈ outputFiles action, s.batches.cells p = outcome ws p

/-! ## Deliveries are batches -/

variable {decodeString action}

/-- **Simulation.**  A step of the deliveries is one of the batches. -/
theorem step_batches {s s' : State} {a : Label}
    (h : (deliveries decodeString action).step s a = some s') :
    ∃ b, a.batch decodeString action = .ok b ∧
      batches.step s.batches b = some s'.batches ∧
      s'.payloads = s.payloadsAfter a := by
  simp only [deliveries] at h
  split at h
  · next b hb =>
    obtain ⟨t, ht, rfl⟩ := Option.map_eq_some_iff.mp h
    exact ⟨b, hb, ht, rfl⟩
  · cases h

/-- The conditions correspond. -/
theorem inOrder_batch {s : State} {a : Label}
    {b : Overwrite.Label GoString GoString}
    (hb : a.batch decodeString action = .ok b) (h : InOrder s a) :
    Overwrite.InOrder (outputFiles action) s.batches b := by
  cases a with
  | deliver i payload =>
      cases hws : saveWrites decodeString action payload with
      | error err =>
          rw [Label.batch, hws] at hb
          cases hb
      | ok ws =>
          rw [Label.batch, hws] at hb
          obtain rfl := Except.ok.inj hb
          exact saveWrites_keys hws
  | write i =>
      obtain rfl := Except.ok.inj hb
      exact h
  | fail i => exact h.elim

/-- Every delivery carries out the writes of its payload. -/
structure Known (decodeString : GoString → Except GoString GoString)
    (action : SaveAction) (s : State) : Prop where
  payload : ∀ i job, s.batches.jobs i = some job → ∃ payload,
    s.payloads i = some payload ∧
      saveWrites decodeString action payload = .ok (job.done ++ job.todo)
  job : ∀ i payload, s.payloads i = some payload →
    ∃ job, s.batches.jobs i = some job

theorem known_step (s : State) (a : Label) (s' : State)
    (h : Known decodeString action s) (horder : InOrder s a)
    (hstep : (deliveries decodeString action).step s a = some s') :
    Known decodeString action s' := by
  obtain ⟨b, hb, ht, hpayloads⟩ := step_batches hstep
  cases a with
  | deliver i payload =>
      obtain ⟨ws, hws, rfl⟩ : ∃ ws, saveWrites decodeString action payload =
          .ok ws ∧ b = .arrive i ws := by
        cases hws : saveWrites decodeString action payload with
        | error err =>
            rw [Label.batch, hws] at hb
            cases hb
        | ok ws =>
            rw [Label.batch, hws] at hb
            exact ⟨ws, rfl, (Except.ok.inj hb).symm⟩
      simp only [batches] at ht
      split at ht
      · have ht := Option.some.inj ht
        constructor
        · intro j job hj
          rw [← ht] at hj
          rw [hpayloads]
          rcases Overwrite.update_cases hj with ⟨rfl, rfl⟩ | ⟨hji, hj⟩
          · exact ⟨payload, Function.update_self _ _ _, hws⟩
          · obtain ⟨payload', hp, hws'⟩ := h.payload j job hj
            exact ⟨payload', (Function.update_of_ne hji _ _).trans hp, hws'⟩
        · intro j payload' hj
          rw [hpayloads] at hj
          rw [← ht]
          by_cases hji : j = i
          · subst hji
            exact ⟨_, Function.update_self _ _ _⟩
          · rw [State.payloadsAfter, Function.update_of_ne hji] at hj
            obtain ⟨job, hjob⟩ := h.job j payload' hj
            exact ⟨job, (Function.update_of_ne hji _ _).trans hjob⟩
      · cases ht
  | write i =>
      obtain rfl := Except.ok.inj hb
      obtain ⟨done, w, rest, rank, hi, ht⟩ := Overwrite.write_cases ht
      constructor
      · intro j job hj
        rw [ht] at hj
        rw [hpayloads]
        rcases Overwrite.update_cases hj with ⟨rfl, rfl⟩ | ⟨_, hj⟩
        · obtain ⟨payload, hp, hws⟩ := h.payload j _ hi
          exact ⟨payload, hp, by simpa using hws⟩
        · exact h.payload j job hj
      · intro j payload hj
        rw [hpayloads] at hj
        rw [ht]
        obtain ⟨job, hjob⟩ := h.job j payload hj
        by_cases hji : j = i
        · subst hji
          exact ⟨_, Function.update_self _ _ _⟩
        · exact ⟨job, (Function.update_of_ne hji _ _).trans hjob⟩
  | fail i => exact horder.elim

/-- What the deliveries and their batches preserve. -/
def Inv (decodeString : GoString → Except GoString GoString)
    (action : SaveAction) (s : State) : Prop :=
  Overwrite.Inv (outputFiles action) s.batches ∧ Known decodeString action s

theorem inv_start (files : Files) :
    Inv decodeString action (start files) := by
  refine ⟨Overwrite.inv_start files, ⟨?_, ?_⟩⟩
  · intro i job h
    cases h
  · intro i payload h
    cases h

/-- **Step lemma.** -/
theorem inv_step (s : State) (a : Label) (s' : State)
    (h : Inv decodeString action s) (horder : InOrder s a)
    (hstep : (deliveries decodeString action).step s a = some s') :
    Inv decodeString action s' := by
  obtain ⟨b, hb, ht, _⟩ := step_batches hstep
  exact ⟨Overwrite.inv_step s.batches b s'.batches h.1
    (inOrder_batch hb horder) ht, known_step s a s' h.2 horder hstep⟩

end Deliveries

/-- **Deliveries do not mix.**  When no write fails and none is late, and all
deliveries have returned, every file of the output set comes from one and the
same payload. -/
theorem deliveries_do_not_mix
    (decodeString : GoString → Except GoString GoString) (action : SaveAction)
    (files : Files) (as : List Label) (s : State)
    (hrun : (deliveries decodeString action).run (start files) as = some s)
    (horder : (deliveries decodeString action).Along InOrder (start files) as)
    (hquiet : s.Quiescent) (hsome : ∃ i payload, s.payloads i = some payload) :
    FromOne decodeString action s := by
  obtain ⟨hbatches, hknown⟩ := Machine.invariant_along inv_step as
    (start files) s (inv_start files) horder hrun
  obtain ⟨i, payload, hpayload⟩ := hsome
  obtain ⟨j, job, hjob, htodo, hcells⟩ := hbatches.one_batch hquiet
    ⟨i, hknown.job i payload hpayload⟩
  obtain ⟨payload', hpayload', hws⟩ := hknown.payload j job hjob
  rw [htodo, List.append_nil] at hws
  exact ⟨j, payload', job.done, hpayload', hws, hcells⟩

/-- A certificate and its key, in two files. -/
private def certAndKey : SaveAction :=
  ⟨"certs", "cert.pem", [], [], "key.pem", [], []⟩

private def delivered (cert key : GoString) : Payload :=
  { Payload.zero with cert := cert, privateKey := key }

/-- The second delivery has begun before the first has ended, and follows it
from file to file. -/
private def following : List Label :=
  [.deliver 0 (delivered "cert A" "key A"),
    .deliver 1 (delivered "cert B" "key B"), .write 0, .write 1, .write 0,
    .write 1]

/-- The second delivery has overtaken the first. -/
private def overtaking : List Label :=
  [.deliver 0 (delivered "cert A" "key A"),
    .deliver 1 (delivered "cert B" "key B"), .write 0, .write 1, .write 1,
    .write 0]

private def pair : Machine State Label := deliveries .ok certAndKey

/-- No delivery but the first two. -/
private def Two (s : State) : Prop :=
  ∀ j, 2 ≤ j → s.batches.jobs j = none ∧ s.payloads j = none

private def ofTwo : Label → Bool
  | .deliver i _ => i < 2
  | .write i => i < 2
  | .fail _ => false

private theorem two_step (s : State) (a : Label) (s' : State) (h : Two s)
    (htwo : ofTwo a = true) (hstep : pair.step s a = some s') : Two s' := by
  obtain ⟨b, hb, ht, hpayloads⟩ := step_batches hstep
  intro j hj
  rw [hpayloads]
  cases a with
  | deliver i payload =>
      have hne : j ≠ i := by
        have hi : i < 2 := by simpa [ofTwo] using htwo
        omega
      refine ⟨?_, (Function.update_of_ne hne _ _).trans (h j hj).2⟩
      cases hws : saveWrites .ok certAndKey payload with
      | error err =>
          rw [Label.batch, hws] at hb
          cases hb
      | ok ws =>
          rw [Label.batch, hws] at hb
          obtain rfl := Except.ok.inj hb
          simp only [batches] at ht
          split at ht
          · rw [← Option.some.inj ht]
            exact (Function.update_of_ne hne _ _).trans (h j hj).1
          · cases ht
  | write i =>
      have hne : j ≠ i := by
        have hi : i < 2 := by simpa [ofTwo] using htwo
        omega
      refine ⟨?_, (h j hj).2⟩
      obtain rfl := Except.ok.inj hb
      obtain ⟨done, w, rest, rank, _, ht⟩ := Overwrite.write_cases ht
      rw [ht]
      exact (Function.update_of_ne hne _ _).trans (h j hj).1
  | fail i => cases htwo

private theorem two_of_run {as : List Label} {s : State}
    (hrun : pair.run (start fun _ => none) as = some s)
    (htwo : ∀ a ∈ as, ofTwo a = true) : Two s :=
  Machine.invariant_along two_step as _ s (fun _ _ => ⟨rfl, rfl⟩)
    (Machine.along_of_mem _ as _ fun a ha _ => htwo a ha) hrun

private theorem lt_two {s : State} (h : Two s) {j : Nat}
    (hj : s.batches.jobs j ≠ none ∨ s.payloads j ≠ none) : j = 0 ∨ j = 1 := by
  by_contra hne
  obtain ⟨hnone, hnone'⟩ := h j (by omega)
  exact hj.elim (absurd hnone) (absurd hnone')

/-- The condition, checked for two deliveries. -/
private def inOrderOfTwo (s : State) : Label → Bool
  | .deliver i _ => i < 2
  | .write i => i < 2 && (s.batches.jobs i).all fun job => [0, 1].all fun j =>
      (s.batches.jobs j).all fun job' =>
        match job.rank, job'.rank with
        | some r, some r' => r' ≤ r || job'.done.length ≤ job.done.length
        | _, _ => true
  | .fail _ => false

private theorem inOrder_of_two (s : State) (a : Label)
    (h : Two s ∧ inOrderOfTwo s a = true) : InOrder s a := by
  obtain ⟨htwo, hcheck⟩ := h
  cases a with
  | deliver i payload => trivial
  | write i =>
      intro job hi j job' hj hlater
      have hj2 := lt_two htwo (.inl (by rw [hj]; nofun))
      obtain ⟨r, r', hr, hr', hlt⟩ := hlater
      simp only [inOrderOfTwo, hi, Option.all_some, Bool.and_eq_true,
        List.all_cons, List.all_nil, Bool.and_true] at hcheck
      rcases hj2 with rfl | rfl
      · simpa [hj, hr, hr', Nat.not_le.mpr hlt] using hcheck.2.1
      · simpa [hj, hr, hr', Nat.not_le.mpr hlt] using hcheck.2.2
  | fail i => cases hcheck

/-- The deliveries that have carried out all their writes. -/
private def bothEnded (s : State) : Bool :=
  [0, 1].all fun j => (s.batches.jobs j).all fun job => job.todo == []

private theorem quiescent_of_two {s : State} (htwo : Two s)
    (hended : bothEnded s = true) : s.Quiescent := by
  intro j job hj
  have hj2 := lt_two htwo (.inl (by rw [hj]; nofun))
  simp only [bothEnded, List.all_cons, List.all_nil, Bool.and_true,
    Bool.and_eq_true] at hended
  left
  rcases hj2 with rfl | rfl
  · simpa [hj] using hended.1
  · simpa [hj] using hended.2

theorem deliveries_do_not_mix_following :
    ∃ s, pair.run (start fun _ => none) following = some s ∧
      s.batches.cells "certs/cert.pem" = some "cert B" ∧
      FromOne .ok certAndKey s := by
  obtain ⟨s, hrun⟩ := Option.isSome_iff_exists.mp (show (pair.run
    (start fun _ => none) following).isSome = true by decide +kernel)
  have hlabels : ∀ a ∈ following, ofTwo a = true := by decide
  have htwo := Machine.along_invariant two_step following (start fun _ => none)
    (fun _ _ => ⟨rfl, rfl⟩)
    (Machine.along_of_mem _ _ _ fun a ha _ => hlabels a ha)
  have hchecked : pair.Along (fun s a => inOrderOfTwo s a = true)
      (start fun _ => none) following := by decide +kernel
  have horder := Machine.along_mono _ (fun s a h => inOrder_of_two s a
    ⟨h.1.1, h.2⟩) _ _ (Machine.along_and _ _ _ htwo hchecked)
  have hend : ∀ s ∈ pair.run (start fun _ => none) following,
      s.batches.cells "certs/cert.pem" = some "cert B" ∧
        bothEnded s = true ∧
        s.payloads 0 = some (delivered "cert A" "key A") := by
    decide +kernel
  obtain ⟨hcell, hended, hpayload⟩ := hend s hrun
  exact ⟨s, hrun, hcell, deliveries_do_not_mix .ok certAndKey _ following s hrun
    horder (quiescent_of_two (two_of_run hrun hlabels) hended)
    ⟨0, _, hpayload⟩⟩

/-- **A mixture**: the certificate of one delivery ends up next to the key of the
other. -/
theorem overtaken_delivery_mixes :
    ∃ s, pair.run (start fun _ => none) overtaking = some s ∧ s.Quiescent ∧
      s.batches.cells "certs/cert.pem" = some "cert B" ∧
      s.batches.cells "certs/key.pem" = some "key A" ∧
      ¬ FromOne .ok certAndKey s := by
  obtain ⟨s, hrun⟩ := Option.isSome_iff_exists.mp (show (pair.run
    (start fun _ => none) overtaking).isSome = true by decide +kernel)
  have hend : ∀ s ∈ pair.run (start fun _ => none) overtaking,
      s.batches.cells "certs/cert.pem" = some "cert B" ∧
        s.batches.cells "certs/key.pem" = some "key A" ∧
        bothEnded s = true ∧
        s.payloads 0 = some (delivered "cert A" "key A") ∧
        s.payloads 1 = some (delivered "cert B" "key B") := by
    decide +kernel
  obtain ⟨hcert, hkey, hended, hfirst, hsecond⟩ := hend s hrun
  have htwo := two_of_run hrun (by decide)
  refine ⟨s, hrun, quiescent_of_two htwo hended, hcert, hkey, ?_⟩
  rintro ⟨i, payload, ws, hpayload, hws, hcells⟩
  rcases lt_two htwo (.inr (by rw [hpayload]; nofun)) with rfl | rfl
  · obtain rfl := Option.some.inj (hfirst.symm.trans hpayload)
    obtain rfl := Except.ok.inj ((show saveWrites .ok certAndKey
      (delivered "cert A" "key A") = .ok [("certs/cert.pem", "cert A"),
        ("certs/key.pem", "key A")] by decide).symm.trans hws)
    have hcell := hcells "certs/cert.pem" (by decide)
    rw [hcert] at hcell
    exact absurd hcell (by decide)
  · obtain rfl := Option.some.inj (hsecond.symm.trans hpayload)
    obtain rfl := Except.ok.inj ((show saveWrites .ok certAndKey
      (delivered "cert B" "key B") = .ok [("certs/cert.pem", "cert B"),
        ("certs/key.pem", "key B")] by decide).symm.trans hws)
    have hcell := hcells "certs/key.pem" (by decide)
    rw [hkey] at hcell
    exact absurd hcell (by decide)

end Hdns.Ports.Deliveries
