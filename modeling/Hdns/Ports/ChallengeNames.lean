import Hdns.Ports.SharedNames

/-!
# The names of a certificate and the names of its challenges

`buildDomains` writes the names a certificate is ordered for, and
`relativeName` takes the challenge names the ACME client makes of them apart
again, to find the record set in the zone.  The first appends the zone and puts
a wildcard in front; the second strips the zone.

## Main results

* `buildDomains_eq` — the names of a certificate are one name, or one name and
  its wildcard.
* `challenge_names_line_up` — the record set of each challenge, qualified with
  the zone again, is the name the challenge is looked up under.
-/

namespace Hdns.Ports.ChallengeNames

open Hdns.Verified
open Hdns.Verified.GoString
open Hdns.Ports.Schema
open Hdns.Ports.Names
open Hdns.Ports.Challenges
open Hdns.Ports.SharedNames

/-- A domain that names a zone: there is a name, and it is no wildcard. -/
structure ZoneName (domain : GoString) : Prop where
  ne_nil : domain.trimSuffix "." ≠ []
  plain : domain.hasPrefix wildcardPrefix = false

/-- The FQDN `GetChallengeInfo` gives for a name of a certificate. -/
def challengeFQDN (domain : GoString) : GoString :=
  lit "_acme-challenge." ++ domain.trimPrefix wildcardPrefix ++ lit "."

/-- A name relative to a zone, written out: `@` is the zone itself. -/
def qualified (zone name : GoString) : GoString :=
  if name = lit "@" then zone else name ++ (lit "." ++ zone)

/-- The name is neither the zone of the provider nor inside of it:
`relativeName` gets to its default case. -/
def Outside (p : Provider) (fqdn : GoString) : Prop :=
  fqdn.trimSuffix "." ≠ p.zone.trimSuffix "." ∧
    (fqdn.trimSuffix ".").hasSuffix (lit "." ++ p.zone.trimSuffix ".") = false

/-! ## The names of a certificate -/

/-- **The names of a certificate**: one, or one and its wildcard. -/
theorem buildDomains_eq (r : Record) :
    ∃ primary, buildDomains r = [primary] ∨
      buildDomains r = [primary, wildcardPrefix ++ primary] := by
  unfold buildDomains
  dsimp only
  generalize (if r.name = lit "@" ∨ r.name = [] then r.domain.trimSuffix "."
    else if r.name = lit "*" then wildcardPrefix ++ r.domain.trimSuffix "."
    else r.name ++ lit "." ++ r.domain.trimSuffix ".") = primary
  refine ⟨primary, ?_⟩
  by_cases hwildcard : r.includeWildcard = true
  · rw [if_pos hwildcard]
    cases hprefix : primary.hasPrefix wildcardPrefix with
    | true =>
        -- a primary name that is a wildcard is its own wildcard
        obtain ⟨host, rfl⟩ := hasPrefix_iff.mp hprefix
        rw [trimPrefix_append]
        exact .inl (if_neg fun hne => hne rfl)
    | false =>
        rw [trimPrefix_of_not hprefix]
        have hne : wildcardPrefix ++ primary ≠ primary := by
          intro heq
          have hlength := congrArg List.length heq
          have hprefix : wildcardPrefix.length = 2 := by decide
          simp only [List.length_append] at hlength
          omega
        exact .inr (if_pos hne)
  · rw [if_neg hwildcard]
    exact .inl rfl

/-- No name is there twice. -/
theorem buildDomains_nodup (r : Record) : (buildDomains r).Nodup := by
  obtain ⟨primary, h | h⟩ := buildDomains_eq r
  · rw [h]
    exact List.nodup_singleton primary
  · have hne : primary ≠ wildcardPrefix ++ primary := by
      intro heq
      have hlength := congrArg List.length heq
      have hprefix : wildcardPrefix.length = 2 := by decide
      simp only [List.length_append] at hlength
      omega
    rw [h]
    simpa using hne

/-- A zone name has no wildcard left when its trailing dot is removed. -/
theorem ZoneName.zone_plain {domain : GoString} (h : ZoneName domain) :
    (domain.trimSuffix ".").hasPrefix wildcardPrefix = false := by
  rw [Bool.eq_false_iff]
  intro hprefix
  obtain ⟨rest, hrest⟩ := hasPrefix_iff.mp hprefix
  have hwhole : domain.hasPrefix wildcardPrefix = true := by
    unfold trimSuffix at hrest
    split at hrest
    · refine hasPrefix_iff.mpr ⟨rest ++ domain.drop (domain.length - 1), ?_⟩
      rw [← List.append_assoc, ← hrest]
      exact (List.take_append_drop _ _).symm
    · exact hasPrefix_iff.mpr ⟨rest, hrest⟩
  rw [h.plain] at hwhole
  cases hwhole

/-- Every name of a certificate lies in the zone. -/
theorem challengeFQDN_inside {r : Record} (h : ZoneName r.domain)
    {d : GoString} (hd : d ∈ buildDomains r) :
    ∃ name, name ≠ lit "@" ∧ challengeFQDN d =
      name ++ (lit "." ++ r.domain.trimSuffix ".") ++ lit "." := by
  have hdot : lit "_acme-challenge." = lit "_acme-challenge" ++ lit "." := by
    decide
  unfold challengeFQDN
  rw [trimPrefix_of_mem_buildDomains hd (primary_mem_buildDomains r)]
  by_cases happly : r.name = lit "@" ∨ r.name = []
  · rw [if_pos happly, trimPrefix_of_not h.zone_plain]
    exact ⟨lit "_acme-challenge", by decide, by simp [hdot]⟩
  · rw [if_neg happly]
    by_cases hstar : r.name = lit "*"
    · rw [if_pos hstar, trimPrefix_append]
      exact ⟨lit "_acme-challenge", by decide, by simp [hdot]⟩
    · rw [if_neg hstar,
        trimPrefix_label _ (fun hnil => happly (.inr hnil)) hstar]
      refine ⟨lit "_acme-challenge." ++ r.name.trimPrefix wildcardPrefix,
        fun heq => ?_, by simp⟩
      have hlength := congrArg List.length heq
      have hlabel : (lit "_acme-challenge.").length = 16 := by decide
      have hat : (lit "@").length = 1 := by decide
      simp only [List.length_append] at hlength
      omega

/-! ## The record sets of the challenges -/

/-- The challenge of a name is published where it is looked up: inside the
zone, under the name that comes to the FQDN again. -/
structure LinesUp (r : Record) (d : GoString) : Prop where
  inside : ¬Outside (newProvider r.zoneID r.domain) (challengeFQDN d)
  /-- With the zone as `relativeName` takes it, without a trailing dot. -/
  name : qualified (r.domain.trimSuffix ".")
      ((newProvider r.zoneID r.domain).relativeName (challengeFQDN d)) =
    (challengeFQDN d).trimSuffix "."
  /-- With the domain as the record has it. -/
  domain : (qualified r.domain
      ((newProvider r.zoneID r.domain).relativeName
        (challengeFQDN d))).trimSuffix "." =
    (challengeFQDN d).trimSuffix "."

/-- A trailing dot is that of the zone. -/
theorem trimSuffix_zone (s domain : GoString)
    (h : domain.trimSuffix "." ≠ []) :
    GoString.trimSuffix (s ++ (lit "." ++ domain)) "." =
      s ++ (lit "." ++ domain.trimSuffix ".") := by
  cases hsuffix : domain.hasSuffix "." with
  | true =>
      obtain ⟨zone, rfl⟩ := hasSuffix_iff.mp hsuffix
      rw [trimSuffix_append, ← List.append_assoc, ← List.append_assoc,
        trimSuffix_append, List.append_assoc]
  | false =>
      have hsame : domain.trimSuffix "." = domain := by
        simp [trimSuffix, hsuffix]
      rw [hsame] at h ⊢
      have hnone : GoString.hasSuffix (s ++ (lit "." ++ domain)) "." = false := by
        rw [Bool.eq_false_iff]
        intro htrue
        obtain ⟨t, ht⟩ := hasSuffix_iff.mp htrue
        rw [← List.append_assoc] at ht
        have hlast := congrArg List.getLast? ht
        rw [List.getLast?_append_of_ne_nil _ h,
          List.getLast?_append_of_ne_nil _ (by decide)] at hlast
        have hdomain := List.dropLast_append_getLast? _ hlast
        refine absurd (hasSuffix_iff.mpr ⟨domain.dropLast, ?_⟩)
          (Bool.eq_false_iff.mp hsuffix)
        exact hdomain.symm
      simp [trimSuffix, hnone]

/-- **Certificate names and challenge names line up**, for every record whose
domain is a zone name. -/
theorem challenge_names_line_up (r : Record) (h : ZoneName r.domain) :
    (buildDomains r).Nodup ∧
      (∃ primary, buildDomains r = [primary] ∨
        buildDomains r = [primary, wildcardPrefix ++ primary]) ∧
      ∀ d ∈ buildDomains r, LinesUp r d := by
  refine ⟨buildDomains_nodup r, buildDomains_eq r, fun d hd => ?_⟩
  obtain ⟨name, hat, hfqdn⟩ := challengeFQDN_inside h hd
  have hrelative : (newProvider r.zoneID r.domain).relativeName
      (challengeFQDN d) = name := by
    rw [hfqdn]
    exact relativeName_inside (newProvider r.zoneID r.domain) name
  have htrim : (challengeFQDN d).trimSuffix "." =
      name ++ (lit "." ++ r.domain.trimSuffix ".") := by
    rw [hfqdn, trimSuffix_append]
  constructor
  · rintro ⟨-, hsuffix⟩
    rw [htrim] at hsuffix
    have hinside : GoString.hasSuffix
        (name ++ (lit "." ++ r.domain.trimSuffix "."))
        (lit "." ++ r.domain.trimSuffix ".") = true :=
      hasSuffix_iff.mpr ⟨name, rfl⟩
    exact Bool.false_ne_true (hsuffix.symm.trans hinside)
  · rw [hrelative, htrim, qualified, if_neg hat]
  · rw [hrelative, htrim, qualified, if_neg hat, trimSuffix_zone _ _ h.ne_nil]

/-- A name that is a wildcard itself, in a zone with a trailing dot. -/
private def starred : Record :=
  ⟨1, "token", 7, "example.org.", "*.www", 60, none, 2, true, none⟩

theorem challenge_names_line_up_starred :
    buildDomains starred = [lit "*.www.example.org"] ∧
      (newProvider 7 "example.org.").relativeName
        (challengeFQDN "*.www.example.org") = lit "_acme-challenge.www" ∧
      LinesUp starred "*.www.example.org" :=
  ⟨by decide, by decide, (challenge_names_line_up starred
    ⟨by decide, by decide⟩).2.2 _ (by decide)⟩

end Hdns.Ports.ChallengeNames
