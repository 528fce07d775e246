import Hdns.Ports.Names
import Hdns.Ports.ChallengeRuns

/-!
# Issuances of different rows

A row's certificate is authorized at one TXT record set, whose name
`buildDomains` and `relativeName` make from the row.  The names "*" and "@" and
the empty one all come to the apex of the zone, and a leading "*." is dropped,
so rows of different names can share a record set.  Each issuance has a provider
of its own, and the slot that excludes a second issuance is per row.

## Main results

* `siteOf_row` — the record set of a row's challenges, from its columns.
* `issuances_undisturbed` — an issuance never takes away a value of another one
  in any interleaving of any number of issuances, if and only if their rows are
  of different zones or come to different names.
-/

namespace Hdns.Ports.SharedNames

open Hdns.Verified
open Hdns.Verified.GoString
open Hdns.Ports.Schema
open Hdns.Ports.Names
open Hdns.Ports.Challenges
open Hdns.Ports.ChallengeRuns

/-! ## The record set of a row -/

/-- What `GetChallengeInfo` gives for a name of a certificate: the challenge of
a wildcard is that of its domain. -/
def Strips (info : GoString → GoString → ChallengeInfo) : Prop :=
  ∀ domain keyAuth, (info domain keyAuth).fqdn =
    lit "_acme-challenge." ++ domain.trimPrefix wildcardPrefix ++ lit "."

/-- Where in its zone a row's certificate is authorized, `none` for the apex. -/
def challengeHost (r : Record) : Option GoString :=
  let zone := r.domain.trimSuffix "."
  if r.name = lit "@" ∨ r.name = [] then
    -- a domain that is itself written as a wildcard lies outside its zone
    if zone.hasPrefix wildcardPrefix then some (zone.trimPrefix wildcardPrefix)
    else none
  else if r.name = lit "*" then none
  else some (r.name.trimPrefix wildcardPrefix)

/-- The name of the record set there. -/
def challengeName : Option GoString → GoString
  | none => lit "_acme-challenge"
  | some host => lit "_acme-challenge." ++ host

/-- The record set of a row's challenges. -/
def rowSite (r : Record) : Site := ⟨r.zoneID, challengeName (challengeHost r)⟩

theorem challengeName_injective {h h' : Option GoString}
    (heq : challengeName h = challengeName h') : h = h' := by
  have hlength : (lit "_acme-challenge.").length =
      (lit "_acme-challenge").length + 1 := by decide
  cases h with
  | none =>
      cases h' with
      | none => rfl
      | some host =>
          have := congrArg List.length heq
          simp only [challengeName, List.length_append] at this
          omega
  | some host =>
      cases h' with
      | none =>
          have := congrArg List.length heq
          simp only [challengeName, List.length_append] at this
          omega
      | some host' => exact congrArg some (List.append_cancel_left heq)

theorem rowSite_eq_iff (r r' : Record) :
    rowSite r = rowSite r' ↔
      r.zoneID = r'.zoneID ∧ challengeHost r = challengeHost r' := by
  constructor
  · intro heq
    exact ⟨congrArg Site.zoneID heq,
      challengeName_injective (congrArg Site.name heq)⟩
  · rintro ⟨hzone, hhost⟩
    rw [rowSite, rowSite, hzone, hhost]

/-- All names of a certificate come to the same one without the wildcard. -/
theorem trimPrefix_of_mem_buildDomains {r : Record} {d d' : GoString}
    (hd : d ∈ buildDomains r) (hd' : d' ∈ buildDomains r) :
    d.trimPrefix wildcardPrefix = d'.trimPrefix wildcardPrefix := by
  unfold buildDomains at hd hd'
  grind [trimPrefix_append]

/-- The first name of a certificate. -/
theorem primary_mem_buildDomains (r : Record) :
    (if r.name = lit "@" ∨ r.name = [] then r.domain.trimSuffix "."
      else if r.name = lit "*" then
        wildcardPrefix ++ r.domain.trimSuffix "."
      else r.name ++ lit "." ++ r.domain.trimSuffix ".") ∈ buildDomains r := by
  unfold buildDomains
  grind

/-- The wildcard of a name is that of its first label. -/
theorem trimPrefix_label {name : GoString} (zone : GoString)
    (hname : name ≠ []) (hstar : name ≠ lit "*") :
    (name ++ lit "." ++ zone).trimPrefix wildcardPrefix =
      name.trimPrefix wildcardPrefix ++ (lit "." ++ zone) := by
  have hbytes : wildcardPrefix = [0x2A, 0x2E] := by decide
  cases hprefix : name.hasPrefix wildcardPrefix with
  | true =>
      obtain ⟨host, rfl⟩ := hasPrefix_iff.mp hprefix
      rw [List.append_assoc, List.append_assoc, trimPrefix_append,
        trimPrefix_append]
  | false =>
      have hwhole : GoString.hasPrefix (name ++ lit "." ++ zone)
          wildcardPrefix = false := by
        rw [hbytes] at hprefix ⊢
        match name with
        | [] => exact absurd rfl hname
        | [b] =>
            have hb : b ≠ 0x2A := fun hb => hstar (by rw [hb]; decide)
            simp [GoString.hasPrefix, List.isPrefixOf, Ne.symm hb]
        | b :: b' :: rest =>
            simpa [GoString.hasPrefix, List.isPrefixOf] using hprefix
      rw [trimPrefix_of_not hwhole, trimPrefix_of_not hprefix,
        List.append_assoc]

/-- A name inside the zone. -/
theorem relativeName_inside (p : Provider) (name : GoString) :
    p.relativeName (name ++ (lit "." ++ p.zone.trimSuffix ".") ++ lit ".") =
      name := by
  have hne : name ++ (lit "." ++ p.zone.trimSuffix ".") ≠
      p.zone.trimSuffix "." := by
    intro heq
    have hlength := congrArg List.length heq
    simp only [List.length_append] at hlength
    have hdot : (lit ".").length = 1 := by decide
    omega
  have hsuffix : GoString.hasSuffix
      (name ++ (lit "." ++ p.zone.trimSuffix "."))
      (lit "." ++ p.zone.trimSuffix ".") = true :=
    hasSuffix_iff.mpr ⟨name, rfl⟩
  unfold Provider.relativeName
  simp only [trimSuffix_append]
  rw [if_neg hne, if_pos hsuffix]

/-- A name outside the zone, where the zone is written as a wildcard. -/
theorem relativeName_outside (p : Provider) (host : GoString)
    (hzone : p.zone.trimSuffix "." = wildcardPrefix ++ host) :
    p.relativeName (lit "_acme-challenge." ++ host ++ lit ".") =
      lit "_acme-challenge." ++ host := by
  have hne : lit "_acme-challenge." ++ host ≠ wildcardPrefix ++ host := by
    intro heq
    exact absurd (List.append_cancel_right heq) (by decide)
  have hsuffix : GoString.hasSuffix (lit "_acme-challenge." ++ host)
      (lit "." ++ (wildcardPrefix ++ host)) = false := by
    rw [Bool.eq_false_iff, Ne, hasSuffix_iff]
    rintro ⟨t, ht⟩
    rw [← List.append_assoc, ← List.append_assoc] at ht
    -- a label is not followed by a wildcard
    have hlabel : GoString.hasSuffix (lit "_acme-challenge.")
        (lit "." ++ wildcardPrefix) = true :=
      hasSuffix_iff.mpr ⟨t, (List.append_cancel_right ht).trans
        (List.append_assoc ..)⟩
    exact absurd hlabel (by decide)
  unfold Provider.relativeName
  simp only [trimSuffix_append, hzone]
  rw [if_neg hne, hsuffix, if_neg Bool.false_ne_true]

/-- **The record set of a row's challenges**, wherever its provider publishes
one of them. -/
theorem siteOf_row {info : GoString → GoString → ChallengeInfo}
    (hinfo : Strips info) (r : Record) {c : Challenge}
    (hc : c.domain ∈ buildDomains r) :
    (newProvider r.zoneID r.domain).siteOf info c = rowSite r := by
  refine congrArg (Site.mk r.zoneID) ?_
  rw [hinfo, trimPrefix_of_mem_buildDomains hc (primary_mem_buildDomains r)]
  have hinside := relativeName_inside (newProvider r.zoneID r.domain)
  have houtside := relativeName_outside (newProvider r.zoneID r.domain)
  unfold challengeHost
  generalize hzone : r.domain.trimSuffix "." = zone
  have hzone : (newProvider r.zoneID r.domain).zone.trimSuffix "." = zone :=
    hzone
  rw [hzone] at hinside houtside
  by_cases happly : r.name = lit "@" ∨ r.name = []
  · rw [if_pos happly, if_pos happly]
    cases hprefix : zone.hasPrefix wildcardPrefix with
    | false =>
        rw [trimPrefix_of_not hprefix]
        exact hinside (lit "_acme-challenge")
    | true =>
        obtain ⟨host, rfl⟩ := hasPrefix_iff.mp hprefix
        rw [trimPrefix_append]
        exact houtside host rfl
  · rw [if_neg happly, if_neg happly]
    by_cases hstar : r.name = lit "*"
    · rw [if_pos hstar, if_pos hstar, trimPrefix_append]
      exact hinside (lit "_acme-challenge")
    · rw [if_neg hstar, if_neg hstar,
        trimPrefix_label zone (fun hempty => happly (.inr hempty)) hstar,
        ← List.append_assoc]
      exact hinside (lit "_acme-challenge." ++
        r.name.trimPrefix wildcardPrefix)

/-! ## Runs of issuances -/

section Runs

variable {ι : Type} [DecidableEq ι]

/-- The issuance whose call has not returned. -/
def ownerOf : Pc ι → Option ι
  | .present k _ => some k
  | .cleanUp k _ => some k
  | .upsert k _ _ => some k
  | .put k _ _ _ => some k
  | .lookup k _ => some k
  | .drop k _ => some k
  | _ => none

/-- Any zones, and for each issuance a provider of its row. -/
def issuing (records : ι → Record) (zones : Zones) : State ι :=
  start zones fun k => newProvider (records k).zoneID (records k).domain

/-- The calls of an issuance are about the names of its row's certificate. -/
def Issues (records : ι → Record) (_ : State ι) : Label ι → Prop
  | .call _ t => t.c.domain ∈ buildDomains (records t.k)
  | .next _ _ => True

/-- In no interleaving does a step of the issuance `k` take away a TXT value
that the issuance `j` has presented and not yet cleaned up. -/
def Undisturbed (info : GoString → GoString → ChallengeInfo)
    (records : ι → Record) (j k : ι) : Prop :=
  ∀ (zones : Zones) (ls : List (Label ι)) (s s' : State ι) (i : Nat)
    (o : Oracle Call) (c : Challenge),
    (calls info).Along (Issues records) (issuing records zones) ls →
    (calls info).run (issuing records zones) ls = some s →
    ownerOf (s.threads i) = some k →
    (calls info).step s (.next i o) = some s' →
    (j, c) ∈ pendingOf s.history →
    quoteTXTValue (c.value info) ∈
      published s.dns.zones ((s.dns.providers j).siteOf info c) →
    quoteTXTValue (c.value info) ∈
      published s'.dns.zones ((s.dns.providers j).siteOf info c)

/-! ### Where the calls publish -/

/-- A provider keeps its zone. -/
def KeepsZone (w w' : Dns ι) : Prop :=
  ∀ k, (w'.providers k).zoneID = (w.providers k).zoneID ∧
    (w'.providers k).zone = (w.providers k).zone

variable (info : GoString → GoString → ChallengeInfo)

theorem next_keepsZone (o : Oracle Call) (pc : Pc ι) :
    Prog.Keeps o KeepsZone (pc.next info) := by
  refine next_keeps (fun _ _ => ⟨rfl, rfl⟩) ?_ o info pc ?_ ?_ ?_
  · intro w₁ w₂ w₃ h h' k
    exact ⟨(h' k).1.trans (h k).1, (h' k).2.trans (h k).2⟩
  · intro t _ w k
    by_cases hk : k = t.k
    · subst hk
      simp [lockedDns, Provider.setValues]
    · simp [lockedDns, hk]
  · exact fun _ _ _ _ _ => ⟨rfl, rfl⟩
  · exact fun _ _ _ _ => ⟨rfl, rfl⟩

/-- A call stays with its issuance, and at the record set it has got from its
provider. -/
theorem next_stays (o : Oracle Call) (s : Sys (Dns ι)) (pc : Pc ι) :
    (pc.next info).wpOk o s fun pc' _ => locks pc' = none ∧
      ∀ k x, ownerOf pc' = some k → siteOf pc' = some x →
        ownerOf pc = some k ∧ (siteOf pc = some x ∨
          ∃ t, locks pc = some t ∧ t.k = k ∧
            x = (s.state.providers k).siteOf info t.c) := by
  cases pc with
  | idle => exact Prog.wpOk_throw _
  | returned r => exact Prog.wpOk_throw _
  | present k c =>
      intro pc' t hrun
      rw [next_lock info rfl] at hrun
      obtain ⟨hok, rfl⟩ := Prod.mk.inj hrun
      obtain rfl := Except.ok.inj hok
      refine ⟨rfl, fun k' x hk hx => ?_⟩
      obtain rfl := Option.some.inj hk
      obtain rfl := Option.some.inj hx
      exact ⟨rfl, .inr ⟨_, rfl, rfl, rfl⟩⟩
  | cleanUp k c =>
      intro pc' t hrun
      rw [next_lock info rfl] at hrun
      obtain ⟨hok, rfl⟩ := Prod.mk.inj hrun
      obtain rfl := Except.ok.inj hok
      refine ⟨rfl, fun k' x hk hx => ?_⟩
      obtain rfl := Option.some.inj hk
      obtain rfl := Option.some.inj hx
      exact ⟨rfl, .inr ⟨_, rfl, rfl, rfl⟩⟩
  | upsert k site vals =>
      refine Prog.wpOk_bind_any fun r t => ?_
      cases r with
      | error err => exact Prog.wpOk_pure ⟨rfl, nofun⟩
      | ok found => exact Prog.wpOk_pure ⟨rfl, fun _ _ hk hx => ⟨hk, .inl hx⟩⟩
  | put k site vals found =>
      exact Prog.wpOk_bind_any fun r t => Prog.wpOk_pure ⟨rfl, nofun⟩
  | lookup k site =>
      refine Prog.wpOk_bind_any fun r t => ?_
      cases r with
      | error err => exact Prog.wpOk_pure ⟨rfl, nofun⟩
      | ok found =>
          cases found with
          | none => exact Prog.wpOk_pure ⟨rfl, nofun⟩
          | some _ => exact Prog.wpOk_pure ⟨rfl, fun _ _ hk hx => ⟨hk, .inl hx⟩⟩
  | drop k site =>
      exact Prog.wpOk_bind_any fun r t => Prog.wpOk_pure ⟨rfl, nofun⟩

variable {info} {records : ι → Record}

/-- A call is about a name of its row's certificate, or at the row's record
set. -/
def Stands (records : ι → Record) (pc : Pc ι) : Prop :=
  (∀ t, locks pc = some t → t.c.domain ∈ buildDomains (records t.k)) ∧
    ∀ k x, ownerOf pc = some k → siteOf pc = some x →
      x = rowSite (records k)

/-- What holds in every state of a run of issuances: the providers have the
zones of their rows, and all that is presented or under way is about the names
of the rows' certificates. -/
structure Inv (records : ι → Record) (s : State ι) : Prop where
  providers : ∀ k, (s.dns.providers k).zoneID = (records k).zoneID ∧
    (s.dns.providers k).zone = (records k).domain
  threads : ∀ i, Stands records (s.threads i)
  presented : ∀ t ∈ s.history, t.c.domain ∈ buildDomains (records t.k)

omit [DecidableEq ι] in
theorem inv_issuing (zones : Zones) : Inv records (issuing records zones) where
  providers := fun _ => ⟨rfl, rfl⟩
  threads := fun _ => ⟨nofun, nofun⟩
  presented := nofun

omit [DecidableEq ι] in
theorem Inv.siteOf_eq (hinfo : Strips info) {s : State ι}
    (h : Inv records s) {k : ι} {c : Challenge}
    (hc : c.domain ∈ buildDomains (records k)) :
    (s.dns.providers k).siteOf info c = rowSite (records k) := by
  rw [← siteOf_row hinfo (records k) hc]
  unfold Provider.siteOf Provider.relativeName
  rw [(h.providers k).1, (h.providers k).2]
  rfl

omit [DecidableEq ι] in
private theorem stands_call {t : Turn ι}
    (ht : t.c.domain ∈ buildDomains (records t.k)) : Stands records t.pc := by
  obtain ⟨op, k, c⟩ := t
  cases op with
  | present => exact ⟨fun t' ht' => Option.some.inj ht' ▸ ht, nofun⟩
  | cleanUp => exact ⟨fun t' ht' => Option.some.inj ht' ▸ ht, nofun⟩

/-- The next step of a call. -/
private theorem inv_next (hinfo : Strips info) {s : State ι}
    (h : Inv records s) {i : Nat} {o : Oracle Call} {pc : Pc ι}
    {t : Sys (Dns ι)}
    (hnext : (s.threads i).next info o ⟨s.dns, 0⟩ = (.ok pc, t)) :
    Inv records (s.moved i t.state pc) := by
  have hzones : KeepsZone s.dns t.state :=
    Prog.wpOk_of_keeps (next_keepsZone info o (s.threads i)) pc t hnext
  obtain ⟨hlocks, hstays⟩ := next_stays info o ⟨s.dns, 0⟩ (s.threads i) pc t
    hnext
  have hstands : Stands records pc := by
    refine ⟨fun t' ht' => ?_, fun k x hk hx => ?_⟩
    · rw [hlocks] at ht'
      cases ht'
    · obtain ⟨hown, hsite | ⟨t', ht', rfl, rfl⟩⟩ := hstays k x hk hx
      · exact (h.threads i).2 k x hown hsite
      · exact h.siteOf_eq hinfo ((h.threads i).1 t' ht')
  refine ⟨fun k => ?_, ?_, fun t' ht' => ?_⟩
  · exact ⟨(hzones k).1.trans (h.providers k).1,
      (hzones k).2.trans (h.providers k).2⟩
  · exact (Pool.forall_set _ i pc).mpr ⟨hstands, fun j _ => h.threads j⟩
  · rcases List.mem_append.mp ht' with ht' | ht'
    · exact h.presented t' ht'
    · exact (h.threads i).1 t' (Option.mem_toList.mp ht')

/-- **Step lemma.** -/
theorem inv_step (hinfo : Strips info) (s : State ι) (l : Label ι)
    (s' : State ι) (h : Inv records s) (hissues : Issues records s l)
    (hstep : (calls info).step s l = some s') : Inv records s' := by
  rcases calls_step_cases hstep with
    ⟨i, t, rfl, _, rfl⟩ | ⟨i, o, pc, t, rfl, hnext, rfl⟩
  · exact ⟨h.providers, (Pool.forall_set _ i t.pc).mpr
      ⟨stands_call hissues, fun j _ => h.threads j⟩, h.presented⟩
  · exact inv_next hinfo h hnext

/-- Rows of different record sets do not disturb each other. -/
theorem undisturbed_of_ne (hinfo : Strips info) {j k : ι}
    (hne : rowSite (records j) ≠ rowSite (records k)) :
    Undisturbed info records j k := by
  intro zones ls s s' i o c halong hrun hown hstep hpending hpublished
  have hinv : Inv records s := Machine.invariant_along (inv_step hinfo) ls _ s
    (inv_issuing zones) halong hrun
  rw [hinv.siteOf_eq hinfo
    (hinv.presented _ (mem_pendingOf s.history hpending))] at hpublished ⊢
  rcases calls_step_cases hstep with
    ⟨_, _, hl, _, _⟩ | ⟨i', o', pc, t, hl, hnext, rfl⟩
  · cases hl
  · obtain ⟨rfl, rfl⟩ := Label.next.inj hl
    have hframe : AgreeOff (siteOf (s.threads i)) s.dns t.state :=
      Prog.wpOk_of_keeps (next_zones info o (s.threads i)) pc t hnext
    have hoff : siteOf (s.threads i) ≠ some (rowSite (records j)) := by
      intro hsite
      exact hne ((hinv.threads i).2 k _ hown hsite)
    show _ ∈ published t.state.zones _
    rw [published, hframe _ hoff]
    exact hpublished

/-! ### A shared record set -/

/-- A run of issuances leads from one state to another. -/
private def Leads (info : GoString → GoString → ChallengeInfo)
    (records : ι → Record) (s s' : State ι) : Prop :=
  ∃ ls, (calls info).Along (Issues records) s ls ∧
    (calls info).run s ls = some s'

private theorem Leads.trans {s s' s'' : State ι}
    (h : Leads info records s s') (h' : Leads info records s' s'') :
    Leads info records s s'' := by
  obtain ⟨ls, halong, hrun⟩ := h
  obtain ⟨ls', halong', hrun'⟩ := h'
  exact ⟨ls ++ ls', (calls info).along_append ls s s' halong hrun halong',
    (calls info).run_append hrun hrun'⟩

private theorem leads_refl (s : State ι) : Leads info records s s :=
  ⟨[], trivial, rfl⟩

private theorem leads_step {s s' : State ι} {l : Label ι}
    (hissues : Issues records s l) (hstep : (calls info).step s l = some s') :
    Leads info records s s' :=
  ⟨[l], ((calls info).along_cons hstep).mpr ⟨hissues, trivial⟩,
    (calls info).run_cons_eq_some.mpr ⟨s', hstep, rfl⟩⟩

private theorem leads_next {s s' : State ι} {i : Nat} {o : Oracle Call}
    (hstep : (calls info).step s (.next i o) = some s') :
    Leads info records s s' := by
  have hissues : Issues records s (.next i o) := trivial
  exact leads_step hissues hstep

private theorem step_next {s : State ι} {i : Nat} {o : Oracle Call}
    {pc : Pc ι} {t : Sys (Dns ι)}
    (hnext : (s.threads i).next info o ⟨s.dns, 0⟩ = (.ok pc, t)) :
    (calls info).step s (.next i o) = some (s.moved i t.state pc) := by
  simp [calls, hnext]

/-- A call that nothing interrupts takes its locked step. -/
private theorem leads_locked {s : State ι} {i : Nat} {t : Turn ι}
    (hidle : s.threads i = .idle)
    (ht : t.c.domain ∈ buildDomains (records t.k)) :
    ∃ s', Leads info records s s' ∧
      s'.threads = s.threads.set i
        (afterLock info (s.dns.providers t.k) t) ∧
      s'.dns.zones = s.dns.zones ∧ s'.history = s.history ++ [t] := by
  have hcall : (calls info).step s (.call i t) =
      some { s with threads := s.threads.set i t.pc } := by
    simp [calls, hidle]
  have hlocks : locks t.pc = some t := by
    obtain ⟨op, k, c⟩ := t
    cases op with
    | present => rfl
    | cleanUp => rfl
  have hself : locks (s.threads.set i t.pc i) = some t := by
    rw [Pool.set_self, hlocks]
  have hnext := step_next (s := { s with threads := s.threads.set i t.pc })
    (next_lock info hself .quiet ⟨s.dns, 0⟩)
  have hissues : Issues records s (.call i t) := ht
  refine ⟨_, (leads_step hissues hcall).trans (leads_next hnext), ?_, rfl, ?_⟩
  · simp [State.moved, Pool.set]
  · simp [State.moved, hlocks]

/-- A call past its locked step takes its next one. -/
private theorem step_past {s : State ι} {i : Nat} {pc pc' : Pc ι}
    {t : Sys (Dns ι)} (hpc : s.threads i = pc) (hlocks : locks pc = none)
    (hnext : pc.next info .quiet ⟨s.dns, 0⟩ = (.ok pc', t)) :
    (calls info).step s (.next i .quiet) = some
      { s with dns := t.state, threads := s.threads.set i pc' } := by
  subst hpc
  rw [step_next hnext]
  simp [State.moved, hlocks]

/-- A `Present` up to its create or overwrite. -/
private theorem leads_put (hinfo : Strips info) {s : State ι}
    (h : Inv records s) {i : Nat} {k : ι} {c : Challenge}
    (hidle : s.threads i = .idle) (hc : c.domain ∈ buildDomains (records k)) :
    ∃ s' vals, Leads info records s s' ∧ c.value info ∈ vals ∧
      s'.threads = s.threads.set i (.put k (rowSite (records k)) vals
        (s'.dns.zones (rowSite (records k)).zoneID
          (rowSite (records k)).name)) ∧
      s'.dns.zones = s.dns.zones ∧
      s'.history = s.history ++ [⟨.present, k, c⟩] := by
  obtain ⟨s', hleads, hthreads, hzones, hhistory⟩ :=
    @leads_locked _ _ info records s i ⟨.present, k, c⟩ hidle hc
  have hpc : s'.threads i = .upsert k (rowSite (records k))
      (valuesAfter info (s.dns.providers k) ⟨.present, k, c⟩) := by
    rw [hthreads, Pool.set_self, ← h.siteOf_eq hinfo hc]
    rfl
  have hstep := step_past hpc rfl (@next_upsert _ _ info _ _ _ _)
  refine ⟨_, valuesAfter info (s.dns.providers k) ⟨.present, k, c⟩,
    hleads.trans (leads_next hstep), ?_, ?_, hzones, hhistory⟩
  · exact List.mem_append_right _ (List.mem_singleton.mpr rfl)
  · simp [hthreads, Pool.set]

/-- A `CleanUp` up to its delete of a record set that is there. -/
private theorem leads_drop (hinfo : Strips info) {s : State ι}
    (h : Inv records s) {i : Nat} {k : ι} {c : Challenge}
    (hidle : s.threads i = .idle) (hc : c.domain ∈ buildDomains (records k))
    (hthere : (s.dns.zones (rowSite (records k)).zoneID
      (rowSite (records k)).name).isSome = true) :
    ∃ s', Leads info records s s' ∧
      s'.threads = s.threads.set i (.drop k (rowSite (records k))) ∧
      s'.dns.zones = s.dns.zones ∧
      s'.history = s.history ++ [⟨.cleanUp, k, c⟩] := by
  obtain ⟨s', hleads, hthreads, hzones, hhistory⟩ :=
    @leads_locked _ _ info records s i ⟨.cleanUp, k, c⟩ hidle hc
  have hpc : s'.threads i = .lookup k (rowSite (records k)) := by
    rw [hthreads, Pool.set_self, ← h.siteOf_eq hinfo hc]
    rfl
  have hstep := step_past hpc rfl (@next_lookup _ _ info _ _ _)
  refine ⟨_, hleads.trans (leads_next hstep), ?_, hzones, hhistory⟩
  · simp [hthreads, Pool.set, hzones, hthere]

/-- The create or overwrite of a `Present` that nothing has crossed. -/
private theorem step_put {s : State ι} {i : Nat} {k : ι} {x : Site}
    {vals : List GoString}
    (hpc : s.threads i = .put k x vals (s.dns.zones x.zoneID x.name)) :
    ∃ s', (calls info).step s (.next i .quiet) = some s' ∧
      published s'.dns.zones x = vals.map quoteTXTValue ∧
      (s'.dns.zones x.zoneID x.name).isSome = true ∧
      s'.history = s.history ∧ ∀ j, j ≠ i → s'.threads j = s.threads j := by
  obtain ⟨r, hr, hput⟩ := @next_put _ _ info ⟨s.dns, 0⟩ k x vals
    (s.dns.zones x.zoneID x.name) rfl
  refine ⟨_, step_past hpc rfl hput, ?_, ?_, rfl, fun j hj => ?_⟩
  · rw [← hr]
    exact published_set ..
  · simp
  · exact Pool.set_ne _ _ hj

/-- The delete of a `CleanUp` that nothing has crossed. -/
private theorem step_drop {s : State ι} {i : Nat} {k : ι} {x : Site}
    (hpc : s.threads i = .drop k x)
    (hthere : (s.dns.zones x.zoneID x.name).isSome = true) :
    ∃ s', (calls info).step s (.next i .quiet) = some s' ∧
      published s'.dns.zones x = [] :=
  ⟨_, step_past hpc rfl (@next_drop _ _ info _ k x hthere), published_remove ..⟩

/-- Two issuances of one record set disturb each other: with the value of `j`
in place, `k` presents a value of its own and cleans it up. -/
theorem not_undisturbed_of_eq (hinfo : Strips info) {j k : ι}
    (heq : rowSite (records j) = rowSite (records k)) :
    ¬Undisturbed info records j k := by
  intro hundisturbed
  obtain ⟨dⱼ, hdⱼ⟩ : ∃ d, d ∈ buildDomains (records j) :=
    ⟨_, primary_mem_buildDomains _⟩
  obtain ⟨dₖ, hdₖ⟩ : ∃ d, d ∈ buildDomains (records k) :=
    ⟨_, primary_mem_buildDomains _⟩
  let a : Challenge := ⟨dⱼ, lit "a"⟩
  let b : Challenge := ⟨dₖ, lit "b"⟩
  have hne : (j, a) ≠ (k, b) := by
    intro h
    have hkeys : lit "a" = lit "b" := congrArg (fun x => x.2.keyAuth) h
    exact absurd hkeys (by decide)
  have hinv : ∀ {s}, Leads info records (issuing records fun _ _ => none) s →
      Inv records s := by
    rintro s ⟨ls, halong, hrun⟩
    exact Machine.invariant_along (inv_step hinfo) ls _ s (inv_issuing _)
      halong hrun
  -- what `k` does to the value of `j` in a state of a run
  have hkeeps : ∀ {s s' : State ι} {i : Nat} {o : Oracle Call},
      Leads info records (issuing records fun _ _ => none) s →
      ownerOf (s.threads i) = some k →
      (calls info).step s (.next i o) = some s' →
      (j, a) ∈ pendingOf s.history →
      quoteTXTValue (a.value info) ∈
        published s.dns.zones (rowSite (records k)) →
      quoteTXTValue (a.value info) ∈
        published s'.dns.zones (rowSite (records k)) := by
    intro s s' i o hs hown hstep hpending hpublished
    have hsite := (hinv hs).siteOf_eq hinfo (c := a) hdⱼ
    obtain ⟨ls, halong, hrun⟩ := hs
    rw [← heq, ← hsite] at hpublished ⊢
    exact hundisturbed _ ls s s' i o a halong hrun hown hstep hpending
      hpublished
  let s₀ : State ι := issuing records fun _ _ => none
  -- `j` presents
  obtain ⟨s₁, vals, h₁, hvals, hthreads₁, -, hhistory₁⟩ :=
    leads_put hinfo (hinv (leads_refl s₀)) (i := 0) (c := a) rfl hdⱼ
  have hpc₁ := congrFun hthreads₁ 0
  rw [Pool.set_self] at hpc₁
  obtain ⟨s₂, hstep₂, hpublished₂, -, hhistory₂, hrest₂⟩ :=
    @step_put _ _ info _ _ _ _ _ hpc₁
  have h₂ := h₁.trans (leads_next hstep₂)
  -- `k` presents
  have hidle₂ : ∀ i, i ≠ 0 → s₂.threads i = .idle := by
    intro i hi
    rw [hrest₂ i hi, hthreads₁, Pool.set_ne _ _ hi]
    rfl
  obtain ⟨s₃, _, h₃, -, hthreads₃, hzones₃, hhistory₃⟩ :=
    leads_put hinfo (hinv h₂) (i := 1) (c := b) (hidle₂ 1 (by decide)) hdₖ
  have hpc₃ := congrFun hthreads₃ 1
  rw [Pool.set_self] at hpc₃
  have h₃ := h₂.trans h₃
  obtain ⟨s₄, hstep₄, -, hthere₄, hhistory₄, hrest₄⟩ :=
    @step_put _ _ info _ _ _ _ _ hpc₃
  have h₄ := h₃.trans (leads_next hstep₄)
  -- `k` cleans up
  have hidle₄ : s₄.threads 2 = .idle := by
    rw [hrest₄ 2 (by decide), hthreads₃, Pool.set_ne _ _ (by decide)]
    exact hidle₂ 2 (by decide)
  obtain ⟨s₅, h₅, hthreads₅, hzones₅, hhistory₅⟩ :=
    leads_drop hinfo (hinv h₄) (i := 2) (c := b) hidle₄ hdₖ hthere₄
  have hpc₅ := congrFun hthreads₅ 2
  rw [Pool.set_self] at hpc₅
  have h₅ := h₄.trans h₅
  rw [← hzones₅] at hthere₄
  obtain ⟨s₆, hstep₆, hpublished₆⟩ :=
    @step_drop _ _ info _ _ _ _ hpc₅ hthere₄
  -- the value of `j` is pending all along
  have hhistory : s₃.history = [⟨.present, j, a⟩] ++ [⟨.present, k, b⟩] := by
    rw [hhistory₃, hhistory₂, hhistory₁]
    rfl
  have hpending₃ : (j, a) ∈ pendingOf s₃.history := by
    rw [hhistory, pendingOf_present]
    exact List.mem_append_left _ (List.mem_singleton.mpr rfl)
  have hpending₅ : (j, a) ∈ pendingOf s₅.history := by
    rw [hhistory₅, hhistory₄, pendingOf_cleanUp]
    exact List.mem_filter.mpr ⟨hpending₃, decide_eq_true hne⟩
  have hin₃ : quoteTXTValue (a.value info) ∈
      published s₃.dns.zones (rowSite (records k)) := by
    rw [hzones₃, ← heq, hpublished₂]
    exact List.mem_map_of_mem hvals
  have hin₄ := hkeeps h₃ (by rw [hpc₃]; rfl) hstep₄ hpending₃ hin₃
  rw [← hzones₅] at hin₄
  have hin₆ := hkeeps h₅ (by rw [hpc₅]; rfl) hstep₆ hpending₅ hin₄
  rw [hpublished₆] at hin₆
  cases hin₆

end Runs

/-! ## Rows of one zone -/

/-- **Issuances disturb each other exactly when their rows share a record
set.**  Of any number of issuances, each with a provider of its own, in any
interleaving of their calls, under any zones at the start and whatever goes
wrong: the issuance `k` takes away no value of `j` if and only if their rows
are of different zones or are authorized at different names. -/
theorem issuances_undisturbed {ι : Type} [DecidableEq ι]
    (info : GoString → GoString → ChallengeInfo) (hinfo : Strips info)
    (records : ι → Record) (j k : ι) :
    Undisturbed info records j k ↔
      ¬((records j).zoneID = (records k).zoneID ∧
        challengeHost (records j) = challengeHost (records k)) := by
  rw [← rowSite_eq_iff]
  constructor
  · exact fun h heq => not_undisturbed_of_eq hinfo heq h
  · exact fun hne => undisturbed_of_ne hinfo hne

private def acme (domain keyAuth : GoString) : ChallengeInfo :=
  ⟨lit "_acme-challenge." ++ domain.trimPrefix wildcardPrefix ++ lit ".",
    keyAuth⟩

/-- Two rows of the zone 7. -/
private def rows (name name' : GoString) (k : Bool) : Record :=
  ⟨if k then 2 else 1, "t", 7, "example.org", if k then name' else name, 300,
    none, 2, false, none⟩

theorem issuances_undisturbed_hosts :
    Undisturbed acme (rows "www" "mail") false true :=
  (issuances_undisturbed acme (fun _ _ => rfl) (rows "www" "mail") false
    true).mpr (by decide)

private def wholeCall (i : Nat) (t : Turn Bool) : List (Label Bool) :=
  [.call i t, .next i .quiet, .next i .quiet, .next i .quiet]

private def apex : Challenge := ⟨"example.org", "a"⟩
private def star : Challenge := ⟨"*.example.org", "b"⟩

/-- The apex row presents, and the row "*" of the same zone is about to
overwrite the record set, or, having presented first, to delete it. -/
theorem apex_and_star_share_a_challenge :
    (rows "@" "*" false).name ≠ (rows "@" "*" true).name ∧
    apex.domain ∈ buildDomains (rows "@" "*" false) ∧
    star.domain ∈ buildDomains (rows "@" "*" true) ∧
    (∃ s s', (calls acme).run (issuing (rows "@" "*") fun _ _ => none)
        (wholeCall 0 ⟨.present, false, apex⟩ ++
          [.call 1 ⟨.present, true, star⟩, .next 1 .quiet, .next 1 .quiet]) =
          some s ∧
      (calls acme).step s (.next 1 .quiet) = some s' ∧
      (false, apex) ∈ pendingOf s.history ∧
      published s.dns.zones ⟨7, "_acme-challenge"⟩ = [lit "\"a\""] ∧
      published s'.dns.zones ⟨7, "_acme-challenge"⟩ = [lit "\"b\""]) ∧
    ∃ s s', (calls acme).run (issuing (rows "@" "*") fun _ _ => none)
        (wholeCall 0 ⟨.present, true, star⟩ ++
          wholeCall 1 ⟨.present, false, apex⟩ ++
          [.call 2 ⟨.cleanUp, true, star⟩, .next 2 .quiet, .next 2 .quiet]) =
          some s ∧
      (calls acme).step s (.next 2 .quiet) = some s' ∧
      (false, apex) ∈ pendingOf s.history ∧
      published s.dns.zones ⟨7, "_acme-challenge"⟩ = [lit "\"a\""] ∧
      published s'.dns.zones ⟨7, "_acme-challenge"⟩ = [] := by
  refine ⟨by decide, by decide, by decide, ⟨_, _, rfl, rfl, ?_⟩,
    ⟨_, _, rfl, rfl, ?_⟩⟩
  · exact ⟨by decide +kernel, by decide +kernel, by decide +kernel⟩
  · exact ⟨by decide +kernel, by decide +kernel, by decide +kernel⟩

end Hdns.Ports.SharedNames
