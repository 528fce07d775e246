import Hdns.Ports.Service
import Hdns.Verified.Machine
import Mathlib.Algebra.Group.Nat.Defs

/-!
# The mailer and its cooldown

`SendReport` hands a report to the mail manager unless a setting, the cooldown
of its severity, a missing manager or a message that cannot be built stands in
the way.  `allowBySeverity` notes the time of a report when it passes the
cooldown, which is before the manager is looked at and before the message is
built.

The manager comes and goes with `Start`, `Stop` and `Restart`; whether it is
running and whether a message can be built is decided outside.

## Main results

* `allowBySeverity_refuses` — what a refused report says about the last one.
* `sendReport_noted` — whose time is noted after a call.
* `suppressed_reports_follow_a_handed_one` — while every report that passes the
  cooldown is handed over, the cooldown suppresses only after such a report.
-/

namespace Hdns.Ports.Mail

open Hdns.Verified
open Hdns.Verified.GoString
open Hdns.Ports.Schema
open Hdns.Ports.Service

/-! ## Settings and state -/

/-- The settings the mailer reads: `config.Notifications`, and whether
`config.Mail` is enabled. -/
structure Settings where
  notificationsEnabled : Bool
  notifyOnSuccess : Bool
  recipients : List GoString
  cooldownMinutes : Int
  mailEnabled : Bool
  deriving DecidableEq, Repr

/-- `Severity`. -/
abbrev Severity := GoString

/-- How a call of `SendReport` ended. -/
inductive Dispatch where
  | disabled
  | muted
  | noRecipients
  | suppressed
  | notRunning
  | notBuilt
  /-- The goroutine that calls `Manager.Send` was started. -/
  | handed
  deriving DecidableEq, Repr

/-- A call of `SendReport` that has returned: the report's severity, the
cooldown it was called under, the times `allowBySeverity` read, and how it
ended. -/
structure Entry where
  severity : Severity
  cooldownMinutes : Int
  since : Int
  now : Int
  dispatch : Dispatch
  deriving DecidableEq, Repr

/-- The package variables `manager` (by whether it is set) and `lastSentAt`,
the configuration, and the calls of `SendReport` so far. -/
structure State where
  settings : Settings
  manager : Bool
  lastSentAt : Severity → Option Int
  log : List Entry

/-- When the program starts. -/
def State.init (settings : Settings) : State where
  settings := settings
  manager := false
  lastSentAt := fun _ => none
  log := []

/-! ## `Start`, `Stop`, `Restart` -/

/-- `Start`; `outcome` is what `Manager.Start` returns. -/
def start (outcome : Except GoError Unit) (s : State) :
    Except GoError Unit × State :=
  if s.manager then (.ok (), s)
  else if ¬s.settings.notificationsEnabled ∨ ¬s.settings.mailEnabled then
    (.ok (), s)
  else
    match outcome with
    | .error err => (.error (.because "failed to start mail manager" err), s)
    | .ok () => (.ok (), { s with manager := true })

/-- `Stop`: an error of `Manager.Stop` is only logged. -/
def stop (s : State) : State := { s with manager := false }

/-- `Restart`: an error of `Start` is only logged. -/
def restart (outcome : Except GoError Unit) (s : State) : State :=
  (start outcome (stop s)).2

/-! ## `SendReport` -/

/-- `time.Duration(minutes) * time.Minute`, in nanoseconds. -/
def cooldown (minutes : Int) : Int := (minutes * 60000000000).bmod (2 ^ 64)

/-- `allowBySeverity`; `since` is the clock as `time.Since` reads it, `now` as
`time.Now` reads it. -/
def allowBySeverity (lastSentAt : Severity → Option Int) (sev : Severity)
    (cooldownMinutes since now : Int) : Bool × (Severity → Option Int) :=
  if cooldownMinutes ≤ 0 then
    (true, Function.update lastSentAt sev (some now))
  else if (lastSentAt sev).any fun last =>
      since - last < cooldown cooldownMinutes then
    (false, lastSentAt)
  else
    let lastSentAt := Function.update lastSentAt sev (some now)
    (true,
      if sev = severityFailure then
        Function.update lastSentAt severitySuccess none
      else lastSentAt)

/-- What a call of `SendReport` meets outside: the clock, whether the manager
it found is running, and what `buildMessage` returns. -/
structure Outside where
  since : Int
  now : Int
  running : Bool
  built : Except GoError Unit

/-- `SendReport`: how it ends, and what it leaves in `lastSentAt`. -/
def sendReport (s : State) (report : Report) (out : Outside) :
    Dispatch × (Severity → Option Int) :=
  let cfg := s.settings
  if ¬cfg.notificationsEnabled then (.disabled, s.lastSentAt)
  else if report.severity = severitySuccess ∧ ¬cfg.notifyOnSuccess then
    (.muted, s.lastSentAt)
  else if cfg.recipients.length = 0 then (.noRecipients, s.lastSentAt)
  else
    let allowed := allowBySeverity s.lastSentAt report.severity
      cfg.cooldownMinutes out.since out.now
    if ¬allowed.1 then (.suppressed, allowed.2)
    else if ¬s.manager ∨ ¬out.running then (.notRunning, allowed.2)
    else
      match out.built with
      | .error _ => (.notBuilt, allowed.2)
      | .ok () => (.handed, allowed.2)

/-! ## Runs -/

/-- A call of the package, or a change of the configuration. -/
inductive Label where
  | configure (settings : Settings)
  | start (outcome : Except GoError Unit)
  | stop
  | restart (outcome : Except GoError Unit)
  | sendReport (report : Report) (out : Outside)

/-- The state after a call of `SendReport`. -/
def State.sent (s : State) (report : Report) (out : Outside) : State :=
  let r := Mail.sendReport s report out
  { s with
    lastSentAt := r.2
    log := s.log ++ [⟨report.severity, s.settings.cooldownMinutes, out.since,
      out.now, r.1⟩] }

/-- The machine whose runs are sequences of calls. -/
def mailer : Machine State Label where
  step s
    | .configure settings => some { s with settings := settings }
    | .start outcome => some (start outcome s).2
    | .stop => some (stop s)
    | .restart outcome => some (restart outcome s)
    | .sendReport report out => some (s.sent report out)

/-! ## The cooldown -/

/-- The multiplication can only overflow downwards. -/
theorem cooldown_le {minutes : Int} (h : 0 < minutes) :
    cooldown minutes ≤ minutes * 60000000000 := by
  unfold cooldown
  rw [Int.bmod_def]
  split
  · omega
  · omega

/-- A refused report was preceded by a time noted for its severity, and leaves
the times as they are. -/
theorem allowBySeverity_refuses {lastSentAt : Severity → Option Int}
    {sev : Severity} {minutes since now : Int}
    (h : (allowBySeverity lastSentAt sev minutes since now).1 = false) :
    (allowBySeverity lastSentAt sev minutes since now).2 = lastSentAt ∧
      ∃ last, lastSentAt sev = some last ∧
        since - last < minutes * 60000000000 := by
  unfold allowBySeverity at h ⊢
  split at h
  · cases h
  · next hminutes =>
    split at h
    · next hlast =>
      obtain ⟨last, hsome, hlt⟩ := (Option.any_eq_true _ _).mp hlast
      have hle := cooldown_le (Int.not_le.mp hminutes)
      have hlt : since - last < cooldown minutes := by simpa using hlt
      exact ⟨by simp [hminutes, hlast], last, hsome, by omega⟩
    · cases h

/-- Whatever time is noted after a call was noted before, or is the time of
this very report. -/
theorem allowBySeverity_notes {lastSentAt : Severity → Option Int}
    {sev : Severity} {minutes since now : Int} {sev' : Severity} {t : Int}
    (h : (allowBySeverity lastSentAt sev minutes since now).2 sev' = some t) :
    lastSentAt sev' = some t ∨ sev' = sev ∧ t = now := by
  have hupdate : ∀ {v : Int}, Function.update lastSentAt sev (some v) sev' =
      some t → lastSentAt sev' = some t ∨ sev' = sev ∧ t = v := by
    intro v hv
    rw [Function.update_apply] at hv
    split at hv
    · next heq => exact .inr ⟨heq, (Option.some.inj hv).symm⟩
    · exact .inl hv
  unfold allowBySeverity at h
  split at h
  · exact hupdate h
  · split at h
    · exact .inl h
    · dsimp only at h
      split at h
      · rw [Function.update_apply] at h
        split at h
        · cases h
        · exact hupdate h
      · exact hupdate h

/-! ## One call -/

/-- The settings let the report through to the cooldown. -/
def Settings.Reports (cfg : Settings) (report : Report) : Prop :=
  cfg.notificationsEnabled = true ∧
    (report.severity = severitySuccess → cfg.notifyOnSuccess = true) ∧
    cfg.recipients ≠ []

instance (cfg : Settings) (report : Report) : Decidable (cfg.Reports report) :=
  inferInstanceAs (Decidable (_ ∧ _ ∧ _))

/-- The report passes the settings and the cooldown. -/
def Admitted (s : State) (report : Report) (out : Outside) : Prop :=
  s.settings.Reports report ∧
    (allowBySeverity s.lastSentAt report.severity s.settings.cooldownMinutes
      out.since out.now).1 = true

instance (s : State) (report : Report) (out : Outside) :
    Decidable (Admitted s report out) := inferInstanceAs (Decidable (_ ∧ _))

/-- A running manager was found, and the message built. -/
def Delivers (s : State) (out : Outside) : Prop :=
  s.manager = true ∧ out.running = true ∧ out.built = .ok ()

instance (s : State) (out : Outside) : Decidable (Delivers s out) :=
  have : Decidable (out.built = .ok ()) :=
    match out.built with
    | .ok () => .isTrue rfl
    | .error _ => .isFalse nofun
  inferInstanceAs (Decidable (_ ∧ _ ∧ _))

/-- A suppressed report: a time was noted for its severity. -/
theorem sendReport_suppressed {s : State} {report : Report} {out : Outside}
    (h : (sendReport s report out).1 = .suppressed) :
    ∃ last, s.lastSentAt report.severity = some last ∧
      out.since - last < s.settings.cooldownMinutes * 60000000000 := by
  unfold sendReport at h
  dsimp only at h
  split at h
  · cases h
  split at h
  · cases h
  split at h
  · cases h
  split at h
  · next hrefused =>
    exact (allowBySeverity_refuses (by simpa using hrefused)).2
  split at h
  · cases h
  split at h
  · cases h
  · cases h

/-- **Whose time is noted.**  After a call, a time was noted before, or it is
that of the report, which passed the cooldown and was handed over if a running
manager was found and the message built. -/
theorem sendReport_noted {s : State} {report : Report} {out : Outside}
    {sev : Severity} {t : Int}
    (h : (sendReport s report out).2 sev = some t) :
    s.lastSentAt sev = some t ∨
      sev = report.severity ∧ t = out.now ∧ Admitted s report out ∧
        (Delivers s out → (sendReport s report out).1 = .handed) := by
  by_cases hadmitted : Admitted s report out
  · obtain ⟨⟨henabled, hsuccess, hrecipients⟩, hallowed⟩ := hadmitted
    have hmuted : ¬(report.severity = severitySuccess ∧
        ¬s.settings.notifyOnSuccess = true) := fun hm => hm.2 (hsuccess hm.1)
    have hlength : ¬s.settings.recipients.length = 0 :=
      fun hl => hrecipients (List.length_eq_zero_iff.mp hl)
    have hlast : (sendReport s report out).2 =
        (allowBySeverity s.lastSentAt report.severity
          s.settings.cooldownMinutes out.since out.now).2 := by
      simp only [sendReport, henabled, hmuted, hlength, hallowed]
      simp only [not_true_eq_false, if_false]
      split
      · rfl
      · cases out.built <;> rfl
    rw [hlast] at h
    refine (allowBySeverity_notes h).imp_right fun ⟨hsev, ht⟩ => ?_
    refine ⟨hsev, ht, ⟨⟨henabled, hsuccess, hrecipients⟩, hallowed⟩, ?_⟩
    rintro ⟨hmanager, hrunning, hbuilt⟩
    simp only [sendReport, henabled, hmuted, hlength, hallowed, hmanager,
      hrunning, hbuilt, not_true_eq_false, or_self, if_false]
  · have hlast : (sendReport s report out).2 = s.lastSentAt := by
      unfold sendReport
      dsimp only
      split
      · rfl
      next henabled =>
      split
      · rfl
      next hmuted =>
      split
      · rfl
      next hlength =>
      have hrefused : (allowBySeverity s.lastSentAt report.severity
          s.settings.cooldownMinutes out.since out.now).1 = false := by
        rw [← Bool.not_eq_true]
        refine fun hallowed => hadmitted ⟨⟨not_not.mp henabled, ?_, ?_⟩,
          hallowed⟩
        · exact fun hsev => by_contra fun hn => hmuted ⟨hsev, hn⟩
        · exact fun hnil => hlength (by rw [hnil]; rfl)
      rw [if_pos (by simp [hrefused])]
      exact (allowBySeverity_refuses hrefused).1
    rw [hlast] at h
    exact .inl h

/-! ## Runs that deliver -/

/-- **The condition.**  A report that passes the settings and the cooldown finds
a running manager, and its message builds. -/
def Reliable (s : State) : Label → Prop
  | .sendReport report out => Admitted s report out → Delivers s out
  | _ => True

instance : ∀ (s : State) (a : Label), Decidable (Reliable s a)
  | _, .sendReport _ _ => inferInstanceAs (Decidable (_ → _))
  | _, .configure _ => .isTrue trivial
  | _, .start _ => .isTrue trivial
  | _, .stop => .isTrue trivial
  | _, .restart _ => .isTrue trivial

/-- If the cooldown suppressed this report, then a report of its severity was
handed over less than the cooldown before. -/
def Justified (before : List Entry) (e : Entry) : Prop :=
  e.dispatch = .suppressed →
    ∃ d ∈ before, d.dispatch = .handed ∧ d.severity = e.severity ∧
      e.since - d.now < e.cooldownMinutes * 60000000000

/-- Every time noted is that of a report that was handed over, and what was
suppressed was suppressed rightly. -/
structure Sound (s : State) : Prop where
  noted : ∀ sev t, s.lastSentAt sev = some t →
    ∃ d ∈ s.log, d.dispatch = .handed ∧ d.severity = sev ∧ d.now = t
  justified : ∀ before e after, s.log = before ++ e :: after →
    Justified before e

theorem sound_init (settings : Settings) : Sound (State.init settings) where
  noted := nofun
  justified := fun before e after h => by simp [State.init] at h

/-- What is neither the times nor the log does not matter. -/
theorem Sound.congr {s s' : State} (h : Sound s)
    (hlast : s'.lastSentAt = s.lastSentAt) (hlog : s'.log = s.log) :
    Sound s' where
  noted := by rw [hlast, hlog]; exact h.noted
  justified := by rw [hlog]; exact h.justified

theorem start_frame (outcome : Except GoError Unit) (s : State) :
    (start outcome s).2.lastSentAt = s.lastSentAt ∧
      (start outcome s).2.log = s.log := by
  unfold start
  split
  · exact ⟨rfl, rfl⟩
  · split
    · exact ⟨rfl, rfl⟩
    · cases outcome with
      | error err => exact ⟨rfl, rfl⟩
      | ok u => exact ⟨rfl, rfl⟩

theorem sound_sent {s : State} (report : Report) (out : Outside) (h : Sound s)
    (hdelivers : Admitted s report out → Delivers s out) :
    Sound (s.sent report out) where
  noted := by
    intro sev t ht
    rcases sendReport_noted ht with hold | ⟨rfl, rfl, hadmitted, hhanded⟩
    · obtain ⟨d, hd, hdone⟩ := h.noted sev t hold
      exact ⟨d, List.mem_append_left _ hd, hdone⟩
    · exact ⟨_, List.mem_append_right _ (List.mem_singleton_self _),
        hhanded (hdelivers hadmitted), rfl, rfl⟩
  justified := by
    intro before e after hsplit
    rcases List.eq_nil_or_concat after with rfl | ⟨after, last, rfl⟩
    · -- the call that has just returned
      obtain ⟨rfl, he⟩ := List.append_inj' hsplit rfl
      obtain rfl := (List.cons.inj he).1
      intro hsuppressed
      obtain ⟨t, ht, hlt⟩ := sendReport_suppressed hsuppressed
      obtain ⟨d, hd, hhanded, hsev, rfl⟩ := h.noted _ t ht
      exact ⟨d, hd, hhanded, hsev, hlt⟩
    · have hlog : s.log = before ++ e :: after := by
        rw [List.concat_eq_append, ← List.cons_append, ← List.append_assoc]
          at hsplit
        exact (List.append_inj' hsplit rfl).1
      exact h.justified before e after hlog

/-- **Step lemma.** -/
theorem sound_step (s : State) (a : Label) (s' : State) (h : Sound s)
    (hreliable : Reliable s a) (hstep : mailer.step s a = some s') :
    Sound s' := by
  cases a with
  | configure settings =>
      obtain rfl := Option.some.inj hstep
      exact h.congr rfl rfl
  | start outcome =>
      obtain rfl := Option.some.inj hstep
      obtain ⟨hlast, hlog⟩ := start_frame outcome s
      exact h.congr hlast hlog
  | stop =>
      obtain rfl := Option.some.inj hstep
      exact h.congr rfl rfl
  | restart outcome =>
      obtain rfl := Option.some.inj hstep
      obtain ⟨hlast, hlog⟩ := start_frame outcome (stop s)
      exact h.congr hlast hlog
  | sendReport report out =>
      obtain rfl := Option.some.inj hstep
      exact sound_sent report out h hreliable

/-- **The cooldown suppresses only what was mailed**, in a run in which every
report that passes the cooldown finds a running manager and builds. -/
theorem suppressed_reports_follow_a_handed_one (settings : Settings)
    (as : List Label) (s : State)
    (hrun : mailer.run (State.init settings) as = some s)
    (hreliable : mailer.Along Reliable (State.init settings) as) :
    ∀ before e after, s.log = before ++ e :: after → Justified before e :=
  (Machine.invariant_along sound_step as (State.init settings) s
    (sound_init settings) hreliable hrun).justified

private def mailing : Settings := ⟨true, true, ["admin@example.org"], 60, true⟩

private def failure : Report := { Report.zero with severity := severityFailure }

/-- One second after the epoch, two, and so on. -/
private def second (n : Int) : Int := n * 1000000000

/-- Two failure reports within the cooldown: the first is handed over, the
second suppressed. -/
private def handedThenSuppressed : List Label :=
  [.start (.ok ()),
    .sendReport failure ⟨second 1, second 1, true, .ok ()⟩,
    .sendReport failure ⟨second 2, second 2, true, .ok ()⟩]

/-- The first report finds no manager, because the mail client is enabled only
afterwards. -/
private def droppedThenSuppressed : List Label :=
  [.start (.ok ()),
    .sendReport failure ⟨second 1, second 1, true, .ok ()⟩,
    .configure mailing,
    .restart (.ok ()),
    .sendReport failure ⟨second 2, second 2, true, .ok ()⟩]

theorem suppressed_reports_follow_a_handed_one_twice :
    ∃ s, mailer.run (State.init mailing) handedThenSuppressed = some s ∧
      s.log.map (·.dispatch) = [.handed, .suppressed] ∧
      ∀ before e after, s.log = before ++ e :: after → Justified before e := by
  refine ⟨_, rfl, by decide, ?_⟩
  exact suppressed_reports_follow_a_handed_one mailing handedThenSuppressed _
    rfl (by decide)

/-- A report that found no manager starts the cooldown all the same: the next
one is suppressed although nothing was ever handed over. -/
theorem dropped_report_starts_cooldown :
    ∃ s, mailer.run (State.init { mailing with mailEnabled := false })
        droppedThenSuppressed = some s ∧
      s.log.map (·.dispatch) = [.notRunning, .suppressed] ∧
      ¬∀ before e after, s.log = before ++ e :: after →
        Justified before e := by
  refine ⟨_, rfl, by decide, fun h => ?_⟩
  obtain ⟨d, hd, hhanded, _⟩ := h [_] _ [] rfl rfl
  obtain rfl := List.mem_singleton.mp hd
  cases hhanded

end Hdns.Ports.Mail
