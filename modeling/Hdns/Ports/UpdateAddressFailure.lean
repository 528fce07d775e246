import Hdns.Ports.UpdateAddress

/-!
# Address updates that fail

The callback of `UpdateAddress` clears the `current` flag of the stored row
before it inserts the row that replaces it, and nothing undoes the first
statement when a later one fails.  This module says exactly which failures
leave the current rows alone.

## Main results

* `failed_update_changes_nothing_iff` — a call that returns an error leaves the
  current rows as they were if and only if it stops before the reset has taken
  effect.
-/

namespace Hdns.Ports.UpdateAddressFailure

open Hdns.Verified
open Hdns.Ports.Schema
open Hdns.Ports.UpdateAddress

/-- The rows with `current = TRUE`. -/
def currentRows (t : Table Address) : List Address := t.rows.filter (·.current)

/-- If the call returned an error, the current rows are those of `w`. -/
def Unchanged (w : World) (r : Except GoError Address) (t : Sys World) :
    Prop :=
  ∀ err, r = .error err →
    currentRows t.state.addresses = currentRows w.addresses

/-- The pair fits its columns, and no row has its key. -/
def Accepted (env : Env) (t : Table Address) (ipv4 ipv6 : GoString) : Prop :=
  tooLong 15 (nullString ipv4) = false ∧
    tooLong 39 (nullString ipv6) = false ∧
    ∀ a ∈ t.rows,
      collides env.collate (nullString ipv4) (nullString ipv6) a = false

instance (env : Env) (t : Table Address) (ipv4 ipv6 : GoString) :
    Decidable (Accepted env t ipv4 ipv6) :=
  inferInstanceAs (Decidable (_ ∧ _ ∧ _))

/-- The three statements that replace the current row, the first of them call
number `n`: the reset has no effect, or all three go through. -/
def ReplacesOrKeeps (env : Env) (o : Oracle Call) (n : Nat)
    (t : Table Address) (ipv4 ipv6 : GoString) : Prop :=
  o n .resetCurrentAddresses = .fails ∨
    o n .resetCurrentAddresses = .none ∧
      o (n + 1) .createAddress = .none ∧ Accepted env t ipv4 ipv6 ∧
      o (n + 2) .getCurrentAddress = .none

/-- **The condition.**  A call that resolves a pair, reads the current row and
finds another pair in it replaces the row, or does not get as far as the
reset. -/
def Harmless (env : Env) (o : Oracle Call) (s : Sys World) : Prop :=
  ∀ ipv4 ipv6, resolve env.consensus4 env.consensus6 = .ok (ipv4, ipv6) →
    o s.clock .getCurrentAddress = .none →
    (∀ a, currentAddress s.state.addresses = some a →
      ¬(a.ipv4.string = ipv4 ∧ a.ipv6.string = ipv6)) →
    ReplacesOrKeeps env o (s.clock + 1) s.state.addresses ipv4 ipv6

/-! ## The current rows after each statement -/

/-- A reset changes the current rows when there are any. -/
theorem currentRows_reset_ne {t : Table Address}
    (h : ∃ a ∈ t.rows, a.current = true) :
    currentRows (resetCurrent t) ≠ currentRows t := by
  rw [currentRows, filter_current_resetCurrent]
  obtain ⟨a, ha, hcurrent⟩ := h
  exact fun h => List.ne_nil_of_mem
    (List.mem_filter.mpr ⟨ha, hcurrent⟩) h.symm

/-- A row with a fresh id is not one of the current rows. -/
theorem currentRows_insert_ne (t : Table Address) (ipv4 ipv6 : NullString) :
    currentRows ((resetCurrent t).insert fun id => ⟨id, ipv4, ipv6, true⟩) ≠
      currentRows t := by
  intro h
  have hmem : (⟨t.next, ipv4, ipv6, true⟩ : Address) ∈ currentRows t := by
    rw [← h, currentRows, filter_current_insert]
    exact List.mem_singleton_self _
  have hlt := t.fresh _ (List.mem_of_mem_filter hmem)
  exact absurd hlt (Int.lt_irrefl _)

theorem accepted_iff (env : Env) (t : Table Address) (ipv4 ipv6 : GoString) :
    Accepted env t ipv4 ipv6 ↔
      ∃ id, (insertAddress env.collate (nullString ipv4) (nullString ipv6) true
        (resetCurrent t)).1 = .ok id := by
  have hany : (resetCurrent t).rows.any
      (collides env.collate (nullString ipv4) (nullString ipv6)) = true ↔
        ∃ a ∈ t.rows, collides env.collate (nullString ipv4)
          (nullString ipv6) a = true := by
    simp only [resetCurrent, Table.rows_updateWhere, List.any_eq_true,
      List.mem_map, exists_exists_and_eq_and]
    refine exists_congr fun a => and_congr_right fun _ => ?_
    split
    · rfl
    · rfl
  unfold Accepted insertAddress
  constructor
  · rintro ⟨h4, h6, hfree⟩
    have hnone : ¬(resetCurrent t).rows.any (collides env.collate
        (nullString ipv4) (nullString ipv6)) = true := by
      rw [hany]
      rintro ⟨a, ha, hcollides⟩
      rw [hfree a ha] at hcollides
      cases hcollides
    simp [h4, h6, hnone]
  · rintro ⟨id, hid⟩
    split at hid
    · cases hid
    next hfits =>
    split at hid
    · cases hid
    next hnone =>
    simp only [Bool.or_eq_true, not_or, Bool.not_eq_true] at hfits
    refine ⟨hfits.1, hfits.2, fun a ha => ?_⟩
    rw [← Bool.not_eq_true]
    exact fun hcollides => hnone (hany.mpr ⟨a, ha, hcollides⟩)

/-! ## The statements after the first read -/

/-- The table after the insert, however the insert ends. -/
private theorem currentRows_create_ne (env : Env) (ipv4 ipv6 : GoString)
    {t : Table Address} (hcur : ∃ a ∈ t.rows, a.current = true) :
    currentRows (insertAddress env.collate (nullString ipv4) (nullString ipv6)
      true (resetCurrent t)).2 ≠ currentRows t := by
  rcases insertAddress_cases env.collate (nullString ipv4) (nullString ipv6)
    true (resetCurrent t) with ⟨err, h⟩ | ⟨_, h⟩ | ⟨_, h⟩
  · rw [h]; exact currentRows_reset_ne hcur
  · rw [h]; exact currentRows_reset_ne hcur
  · rw [h]; exact currentRows_insert_ne _ _ _

section Replace

variable {env : Env} {o : Oracle Call} {s : Sys World} {ipv4 ipv6 : GoString}

/-- The read-back at the end, of a table whose current rows are not those of
`w` any more. -/
private theorem readBack_unchanged_iff {w : World} {a : Address}
    (ha : currentAddress s.state.addresses = some a)
    (hne : currentRows s.state.addresses ≠ currentRows w.addresses) :
    (getCurrentAddress.mapError GoError.wrap).wp o s (Unchanged w) ↔
      o s.clock .getCurrentAddress = .none := by
  rw [Prog.wp_mapError, getCurrentAddress]
  by_cases ho : o s.clock .getCurrentAddress = .none
  · rw [Prog.wp_query_none ho, ha]
    exact ⟨fun _ => ho, by rintro _ _ ⟨⟩⟩
  · rw [Prog.wp_query_faulty ho]
    exact ⟨fun h => absurd (h _ rfl) hne, fun h => absurd h ho⟩

/-- The insert and what follows, after a reset. -/
private theorem create_unchanged_iff {w : World}
    (hcur : ∃ a ∈ w.addresses.rows, a.current = true)
    (hs : s.state.addresses = resetCurrent w.addresses) :
    (do
      let _ ← (createAddress env (nullString ipv4) (nullString ipv6)
        true).mapError .wrap
      getCurrentAddress.mapError .wrap : Handler Address).wp o s
        (Unchanged w) ↔
      o s.clock .createAddress = .none ∧
        Accepted env w.addresses ipv4 ipv6 ∧
        o (s.clock + 1) .getCurrentAddress = .none := by
  have hne := currentRows_create_ne env ipv4 ipv6 hcur
  have hreset : currentRows s.state.addresses ≠ currentRows w.addresses := by
    rw [hs]
    exact currentRows_reset_ne hcur
  rw [Prog.wp_bind, Prog.wp_mapError, createAddress]
  cases ho : o s.clock .createAddress with
  | fails =>
      rw [Prog.wp_call_fails ho]
      exact ⟨fun h => absurd (h _ rfl) hreset, by rintro ⟨⟨⟩, _⟩⟩
  | lostReply =>
      rw [Prog.wp_call_lost ho]
      refine ⟨fun h => absurd (h _ rfl) ?_, by rintro ⟨⟨⟩, _⟩⟩
      rw [hs]
      exact hne
  | none =>
      rw [Prog.wp_call_none ho, accepted_iff, hs]
      rcases insertAddress_cases env.collate (nullString ipv4)
        (nullString ipv6) true (resetCurrent w.addresses)
        with ⟨err, h⟩ | ⟨_, h⟩ | ⟨_, h⟩
      · rw [h] at hne ⊢
        exact ⟨fun hun => absurd (hun _ rfl) hne,
          by rintro ⟨_, ⟨_, ⟨⟩⟩, _⟩⟩
      · rw [h] at hne ⊢
        exact ⟨fun hun => absurd (hun _ rfl) hne,
          by rintro ⟨_, ⟨_, ⟨⟩⟩, _⟩⟩
      · rw [h] at hne ⊢
        refine (readBack_unchanged_iff (currentAddress_insert _ _ _) hne).trans
          ?_
        exact ⟨fun hread => ⟨rfl, ⟨_, rfl⟩, hread⟩, fun h => h.2.2⟩

/-- The three statements, from a table with a current row. -/
theorem replaceAddress_unchanged_iff
    (hcur : ∃ a ∈ s.state.addresses.rows, a.current = true) :
    (replaceAddress env ipv4 ipv6).wp o s (Unchanged s.state) ↔
      ReplacesOrKeeps env o s.clock s.state.addresses ipv4 ipv6 := by
  unfold replaceAddress ReplacesOrKeeps
  rw [Prog.wp_bind, Prog.wp_mapError, resetCurrentAddresses]
  cases ho : o s.clock .resetCurrentAddresses with
  | fails =>
      rw [Prog.wp_call_fails ho]
      exact ⟨fun _ => .inl rfl, fun _ _ _ => rfl⟩
  | lostReply =>
      rw [Prog.wp_call_lost ho]
      exact ⟨fun h => absurd (h _ rfl) (currentRows_reset_ne hcur),
        fun h => by simp at h⟩
  | none =>
      rw [Prog.wp_call_none ho]
      refine (create_unchanged_iff (s := ⟨{ s.state with
        addresses := resetCurrent s.state.addresses }, s.clock + 1⟩)
        hcur rfl).trans ?_
      simp

end Replace

/-! ## The call -/

/-- A table with a current row has one that a scan finds. -/
private theorem currentAddress_of_current {t : Table Address}
    (h : ∃ a ∈ t.rows, a.current = true) :
    ∃ a, currentAddress t = some a := by
  obtain ⟨a, ha, hcurrent⟩ := h
  exact Option.isSome_iff_exists.mp
    (List.find?_isSome.mpr ⟨a, ha, hcurrent⟩)

private theorem saveAddress_unchanged_iff (env : Env) (o : Oracle Call)
    (s : Sys World) (ipv4 ipv6 : GoString)
    (hcur : ∃ a ∈ s.state.addresses.rows, a.current = true) :
    (saveAddress env ipv4 ipv6).wp o s (Unchanged s.state) ↔
      (o s.clock .getCurrentAddress = .none →
        (∀ a, currentAddress s.state.addresses = some a →
          ¬(a.ipv4.string = ipv4 ∧ a.ipv6.string = ipv6)) →
        ReplacesOrKeeps env o (s.clock + 1) s.state.addresses ipv4 ipv6) := by
  obtain ⟨a, ha⟩ := currentAddress_of_current hcur
  unfold saveAddress scanCurrent
  rw [Prog.wp_bind, Prog.wp_bind, Prog.wp_attempt, getCurrentAddress]
  by_cases ho : o s.clock .getCurrentAddress = .none
  · rw [Prog.wp_query_none ho, ha]
    show Prog.wp (if a.ipv4.string = ipv4 ∧ a.ipv6.string = ipv6 then pure a
      else replaceAddress env ipv4 ipv6) o ⟨s.state, s.clock + 1⟩
        (Unchanged s.state) ↔ _
    split
    · next hsame =>
      exact ⟨fun _ _ hother => absurd hsame (hother a rfl),
        by rintro _ _ ⟨⟩⟩
    · next hother =>
      refine (replaceAddress_unchanged_iff
        (s := ⟨s.state, s.clock + 1⟩) hcur).trans ?_
      refine ⟨fun h _ _ => h, fun h => h ho fun b hb => ?_⟩
      exact Option.some.inj hb ▸ hother
  · rw [Prog.wp_query_faulty ho]
    exact ⟨fun _ h => absurd h ho, fun _ _ _ => rfl⟩

/-- **The failures that change nothing.**  With a row current, a call that
returns an error leaves the current rows as they were if and only if it stops
before the reset has taken effect. -/
theorem failed_update_changes_nothing_iff (env : Env) (o : Oracle Call)
    (s : Sys World)
    (hcur : ∃ a ∈ s.state.addresses.rows, a.current = true) :
    (updateAddress env).wp o s (fun r t => ∀ err, r = .error err →
        currentRows t.state.addresses = currentRows s.state.addresses) ↔
      Harmless env o s := by
  unfold updateAddress Harmless
  cases hres : resolve env.consensus4 env.consensus6 with
  | error err => exact ⟨fun _ _ _ => nofun, fun _ _ _ => rfl⟩
  | ok pair =>
      have hsave := saveAddress_unchanged_iff env o s pair.1 pair.2 hcur
      have hwrap : ∀ r : Except GoError Address, ∀ t : Sys World,
          Unchanged s.state (r.mapError (.because
            "failed to save public IP address to database")) t ↔
            Unchanged s.state r t := by
        intro r t
        cases r with
        | error err => exact ⟨fun h _ _ => h _ rfl, fun h _ _ => h _ rfl⟩
        | ok a => exact ⟨fun _ _ => nofun, fun _ _ => nofun⟩
      refine Iff.trans (hwrap _ _) (hsave.trans ?_)
      constructor
      · intro h ipv4 ipv6 hpair
        obtain rfl := Except.ok.inj hpair
        exact h
      · exact fun h => h pair.1 pair.2 rfl

private def home : Address := ⟨1, some "203.0.113.1", some "2001:db8::1", false⟩

private def away : Address := ⟨2, some "203.0.113.2", some "2001:db8::2", true⟩

/-- Two pairs are stored, and the second is current. -/
private def moved : Sys World where
  state := { World.init (fun _ _ => none) with
    addresses := ⟨[home, away], 3, by decide, by decide⟩ }
  clock := 0

/-- The resolvers return the first pair again. -/
private def back : Env := { Env.sample with
  consensus4 := ("203.0.113.1", none)
  consensus6 := ("2001:db8::1", none) }

/-- The connection is lost before the reset. -/
private def lostEarly : Oracle Call := fun _ c =>
  if c = .resetCurrentAddresses then .fails else .none

theorem failed_update_changes_nothing_iff_lost_early :
    (updateAddress back).wp lostEarly moved (fun r t => ∀ err, r = .error err →
      currentRows t.state.addresses = currentRows moved.state.addresses) := by
  refine (failed_update_changes_nothing_iff back lostEarly moved
    ⟨away, by decide, rfl⟩).mpr ?_
  exact fun _ _ _ _ _ => .inl rfl

/-- The insert of an earlier pair is rejected after the reset: the call fails
and leaves no row current. -/
theorem rejected_insert_clears_current :
    ∃ err, (updateAddress back .quiet moved).1 = .error err ∧
      currentRows moved.state.addresses = [away] ∧
      currentRows (updateAddress back .quiet moved).2.state.addresses = [] :=
  ⟨_, rfl, by decide, by decide⟩

end Hdns.Ports.UpdateAddressFailure
