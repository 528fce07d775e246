import Hdns.Ports.Operations

/-!
# Which A record sets are written, and with what

A write is safe when it is made for a record that wants dynamic DNS and carries
the valid, non-empty IPv4 of the address row being applied.  The scheduled pass
and `dns.RefreshRecord` check both before they write; `Server.RefreshRecord`
checks neither, so a run is safe as far as its calls of that operation are.

## Main results

* `SafeWrite`, `Checked` — the property, and the two checks as a condition on
  the calls of `Server.RefreshRecord`.
* `checked_writes_are_safe` — in every run whose steps are checked, every write
  is safe.
-/

namespace Hdns.Ports.WriteSafety

open Hdns.Verified
open Hdns.Verified.GoString
open Hdns.Ports.Schema
open Hdns.Ports.UpdateAddress
open Hdns.Ports.Hetzner
open Hdns.Ports.Operations

/-- A write is for a DDNS record and carries the valid address applied. -/
def SafeWrite : Event → Prop
  | .writeA record address _ after =>
      recordDoesDDNS record.purpose = true ∧
        ∃ ip, address.ipv4 = some ip ∧ ip ≠ [] ∧ after.values = [ip]
  | _ => True

/-- Only writes so far were safe ones. -/
def AllSafe (w : World) : Prop := ∀ e ∈ w.events, SafeWrite e

/-- The checks `Server.RefreshRecord` leaves out, as a condition on its calls:
the record wants dynamic DNS, and an IPv4 was resolved. -/
def Checked (w : World) : Op → Prop
  | .serverRefreshRecord env _ id =>
      ∀ r, w.records.find? id = some r →
        recordDoesDDNS r.purpose = true ∧ env.consensus4.1 ≠ []
  | _ => True

theorem allSafe_append {w w' : World} {es : List Event}
    (hes : w'.events = w.events ++ es) (hsafe : ∀ e ∈ es, SafeWrite e)
    (h : AllSafe w) : AllSafe w' := by
  intro e he
  rw [hes] at he
  rcases List.mem_append.mp he with he | he
  · exact h e he
  · exact hsafe e he

theorem safeWrite_of_calm {e : Event} (h : ¬Event.isIP e) : SafeWrite e := by
  cases e with
  | writeA r addr before after => exact absurd rfl h
  | _ => trivial

theorem allSafe_tracks :
    Tracks fun w w' : World => AllSafe w → AllSafe w' where
  refl := fun _ => id
  trans := fun _ _ _ h h' => h' ∘ h
  calm := by
    intro w w' h
    obtain ⟨es, hes, hcalm⟩ := h.events
    exact allSafe_append hes fun e he => safeWrite_of_calm (hcalm e he)
  saved := by
    intro ipv4 ipv6 w r w' h
    have hevents : w'.events = w.events ++ [] := by rw [h.frame]; simp
    exact allSafe_append hevents (by simp)
  ran := by
    intro w id event
    have hlog : (w.log (.runTask id event)).events =
        w.events ++ [.runTask id event] := rfl
    exact allSafe_append hlog (by simp [SafeWrite])
  result := fun _ _ _ _ _ => id

/-- A write of a valid address for a DDNS record is safe. -/
theorem allSafe_write {r : Record} {addr : Address} {ip : GoString}
    (hddns : recordDoesDDNS r.purpose = true) (hip : addr.ipv4 = some ip)
    (hne : ip ≠ []) (w : World) (new : RRSet) (hnew : new.values = [ip])
    (h : AllSafe w) : AllSafe (write r addr new w) := by
  have hlog : (write r addr new w).events =
      w.events ++ [.writeA r addr (rrset w r) new] := rfl
  refine allSafe_append hlog ?_ h
  intro e he
  rw [List.mem_singleton.mp he]
  exact ⟨hddns, ip, hip, hne, hnew⟩

/-- **Step lemma.** -/
theorem allSafe_step (op : Op) {w : World} (htexts : TextsNonempty w.addresses)
    (hchecked : Checked w op) (h : AllSafe w) : AllSafe (op.apply w) := by
  refine Op.apply_tracks allSafe_tracks op htexts ?_ ?_ ?_ h
  · exact fun r addr ip hddns hip hne => allSafe_write hddns hip hne
  · rintro env o id rfl r addr hfind haddr w' new hnew
    obtain ⟨hddns, hv4⟩ := hchecked r hfind
    have hip := eq_some_of_string haddr hv4
    exact allSafe_write hddns hip hv4 w' new (haddr ▸ hnew)
  · rintro c rfl
    exact id

/-- **Checked writes are safe.**  From a freshly migrated database and any
zones, in every run in which each call of `Server.RefreshRecord` is for a DDNS
record and had an IPv4 resolved, every create or overwrite of an A record set
is for a DDNS record and carries the valid IPv4 of the address applied. -/
theorem checked_writes_are_safe (zones : Zones) (ops : List Op) (w : World)
    (hrun : operations.run (World.init zones) ops = some w)
    (hchecked : operations.Along Checked (World.init zones) ops) :
    ∀ e ∈ w.events, SafeWrite e := by
  have hstep : ∀ w op w', TextsNonempty w.addresses ∧ AllSafe w →
      Checked w op → operations.step w op = some w' →
        TextsNonempty w'.addresses ∧ AllSafe w' := by
    rintro w op w' ⟨htexts, hsafe⟩ hc hstep
    have hrun : operations.run w [op] = some w' := by
      rw [Machine.run_cons, hstep]; rfl
    obtain rfl := Option.some.inj hstep
    exact ⟨run_textsNonempty [op] w _ htexts hrun,
      allSafe_step op htexts hc hsafe⟩
  exact (Machine.invariant_along hstep ops (World.init zones) w
    ⟨textsNonempty_empty, by simp [AllSafe, World.init]⟩ hchecked hrun).2

private def certOnly : Record :=
  ⟨1, "t", 7, "example.org", "www", 60, none, purposeCert, false, none⟩

private def dynamic : Record := { certOnly with purpose := purposeDDNS }

/-- One record, entered from elsewhere, and a refresh of it through the API
with the given addresses resolved. -/
private def serverRefreshOf (r : Record) (ipv4 ipv6 : GoString) : List Op :=
  [.elsewhere
      { records := Table.empty.insert fun id => { r with id := id }
        certificates := .empty
        tasks := .empty
        taskRuns := .empty
        zones := fun _ _ => none
        pending := fun _ => false },
    .serverRefreshRecord
      { Env.sample with consensus4 := (ipv4, none), consensus6 := (ipv6, none) }
      .quiet 1]

private def emptyWorld : World := World.init fun _ _ => none

theorem checked_writes_are_safe_dynamic :
    ∃ w, operations.run emptyWorld
        (serverRefreshOf dynamic "203.0.113.1" []) = some w ∧
      w.events ≠ [] ∧ ∀ e ∈ w.events, SafeWrite e := by
  refine ⟨_, rfl, by decide, ?_⟩
  refine checked_writes_are_safe (fun _ _ => none)
    (serverRefreshOf dynamic "203.0.113.1" []) _ rfl ⟨trivial, ?_, trivial⟩
  intro r hr
  obtain rfl : dynamic = r := Option.some.inj hr
  exact ⟨by decide, by decide⟩

/-- `Server.RefreshRecord` writes the A record set of a certificate-only
record, and publishes the empty address when only an IPv6 was resolved. -/
theorem server_refresh_writes_unchecked :
    (∃ w, operations.run emptyWorld
        (serverRefreshOf certOnly "203.0.113.1" []) = some w ∧
      ∃ e ∈ w.events, ¬SafeWrite e) ∧
    (∃ w, operations.run emptyWorld
        (serverRefreshOf dynamic [] "2001:db8::1") = some w ∧
      ∃ e ∈ w.events, ¬SafeWrite e) := by
  constructor
  · have hevents : ((operations.run emptyWorld
        (serverRefreshOf certOnly "203.0.113.1" [])).map (·.events)) =
        some [.writeA certOnly ⟨1, some "203.0.113.1", none, true⟩ none
          ⟨60, [lit "203.0.113.1"]⟩] := by decide
    obtain ⟨w, hrun, hw⟩ := Option.map_eq_some_iff.mp hevents
    refine ⟨w, hrun, _, by rw [hw]; exact List.mem_cons_self, ?_⟩
    rintro ⟨hddns, _⟩
    exact absurd hddns (by decide)
  · have hevents : ((operations.run emptyWorld
        (serverRefreshOf dynamic [] "2001:db8::1")).map (·.events)) =
        some [.writeA dynamic ⟨1, none, some "2001:db8::1", true⟩ none
          ⟨60, [[]]⟩] := by decide
    obtain ⟨w, hrun, hw⟩ := Option.map_eq_some_iff.mp hevents
    refine ⟨w, hrun, _, by rw [hw]; exact List.mem_cons_self, ?_⟩
    rintro ⟨_, ip, hip, _⟩
    exact nomatch hip

end Hdns.Ports.WriteSafety
