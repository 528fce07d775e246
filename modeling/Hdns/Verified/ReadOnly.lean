import Hdns.Verified.Effect

/-!
# Programs that only read

A program that only asks about the world computes a partial function of it: what
it returns is that function's value, and it returns it if no call goes wrong.

## Main results

* `Reads.query`, `Reads.bind`, … — the functions that programs compute.
* `Asks.query`, `Asks.bind`, … — how many calls they make, and where they end
  when the context does.
-/

namespace Hdns.Verified.Prog

variable {C σ ε α β : Type}

/-- The program leaves the world alone; it returns nothing but the value of `f`,
and returns it unless a call goes wrong. -/
structure Reads (f : σ → Option α) (p : Prog C σ ε α) : Prop where
  leaves : ∀ o s, (p o s).2.state = s.state
  sound : ∀ o s a, (p o s).1 = .ok a → f s.state = some a
  complete : ∀ s a, f s.state = some a → (p .quiet s).1 = .ok a

namespace Reads

variable {f : σ → Option α} {g : α → σ → Option β} {p : Prog C σ ε α}

theorem pure (a : α) :
    Reads (fun _ => some a) (Pure.pure a : Prog C σ ε α) where
  leaves _ _ := rfl
  sound _ _ _ h := congrArg some (Except.ok.inj h)
  complete _ _ h := congrArg Except.ok (Option.some.inj h)

theorem ofExcept (r : Except ε α) :
    Reads (fun _ => r.toOption) (Prog.ofExcept r : Prog C σ ε α) where
  leaves _ _ := rfl
  sound _ _ a h := by
    rw [show r = .ok a from h]
    rfl
  complete _ a h := by
    cases r with
    | error e => cases h
    | ok b => exact congrArg Except.ok (Option.some.inj h)

theorem query {c : C} {err : ε} {read : σ → Except ε α}
    (hread : ∀ x, (read x).toOption = f x) : Reads f (Prog.query c err read) where
  leaves o s := by
    unfold Prog.query Prog.call
    cases o s.clock c <;> rfl
  sound o s a h := by
    unfold Prog.query Prog.call at h
    cases hfault : o s.clock c with
    | none =>
        rw [hfault] at h
        rw [← hread, show read s.state = .ok a from h]
        rfl
    | fails =>
        rw [hfault] at h
        cases h
    | lostReply =>
        rw [hfault] at h
        cases h
  complete s a h := by
    show read s.state = .ok a
    rw [← hread] at h
    cases hrun : read s.state with
    | error e =>
        rw [hrun] at h
        cases h
    | ok b =>
        rw [hrun] at h
        exact congrArg Except.ok (Option.some.inj h)

/-- Other errors. -/
theorem mapError (hp : Reads f p) (wrap : ε → ε) :
    Reads f (p.mapError wrap) where
  leaves := hp.leaves
  sound o s a h := by
    apply hp.sound o s a
    show (p o s).1 = .ok a
    change (p o s).1.mapError wrap = .ok a at h
    cases hrun : (p o s).1 with
    | error e =>
        rw [hrun] at h
        cases h
    | ok b =>
        rw [hrun] at h
        exact h
  complete s a h := by
    show (p .quiet s).1.mapError wrap = .ok a
    rw [hp.complete s a h]
    rfl

/-- **Sequencing.** -/
theorem bind {q : α → Prog C σ ε β} (hp : Reads f p)
    (hq : ∀ a, Reads (g a) (q a)) :
    Reads (fun w => (f w).bind fun a => g a w) (p >>= q) where
  leaves o s := by
    have hleaves := hp.leaves o s
    rw [Prog.bind_apply]
    cases h : p o s with
    | mk r t =>
        rw [h] at hleaves
        cases r with
        | error e => exact hleaves
        | ok a => exact ((hq a).leaves o t).trans hleaves
  sound o s b h := by
    have hleaves := hp.leaves o s
    have hsound := hp.sound o s
    rw [Prog.bind_apply] at h
    cases hrun : p o s with
    | mk r t =>
        rw [hrun] at h hleaves hsound
        cases r with
        | error e => cases h
        | ok a =>
            rw [hsound a rfl, Option.bind_some, ← (hq a).sound o t b h, hleaves]
  complete s b h := by
    have hleaves := hp.leaves .quiet s
    obtain ⟨a, ha, hb⟩ := Option.bind_eq_some_iff.mp h
    have hcomplete := hp.complete s a ha
    rw [Prog.bind_apply]
    cases hrun : p .quiet s with
    | mk r t =>
        rw [hrun] at hleaves hcomplete
        obtain rfl : r = .ok a := hcomplete
        exact (hq a).complete t b (by rw [hleaves]; exact hb)

/-- A loop. -/
theorem mapM {ι : Type} {f : ι → σ → Option α} {p : ι → Prog C σ ε α}
    (hp : ∀ i, Reads (f i) (p i)) (is : List ι) :
    Reads (fun w => is.mapM fun i => f i w) (is.mapM p) := by
  induction is with
  | nil => exact pure []
  | cons i is ih =>
      simp only [List.mapM_cons]
      exact bind (hp i) fun a => bind ih fun as => pure (a :: as)

/-- How a program that only reads ends, for its caller. -/
theorem wp (hp : Reads f p) (o : Oracle C) (s : Sys σ) :
    p.wp o s fun r t =>
      t.state = s.state ∧ (∀ a, r = .ok a → f s.state = some a) ∧
        (o = .quiet → ∀ a, f s.state = some a → r = .ok a) := by
  refine ⟨hp.leaves o s, hp.sound o s, ?_⟩
  rintro rfl a ha
  exact hp.complete s a ha

end Reads

/-! ## Under a context that ends -/

/-- In the world `w` the program makes `k` calls, and ends with `r` if they get
through and with an error else.  Where the context is cancelled in front of one
of them, it ends there. -/
structure Asks (w : σ) (k : Nat) (r : Except ε α) (p : Prog C σ ε α) :
    Prop where
  live : ∀ o c, (∀ i < k, ∀ d, o (c + i) d = .none) →
    p o ⟨w, c⟩ = (r, ⟨w, c + k⟩)
  sound : ∀ o c, p.wp o ⟨w, c⟩ fun res t =>
    t.state = w ∧ c ≤ t.clock ∧ (res = r ∨ ∃ e, res = .error e)
  cut : ∀ n c, c ≤ n → n < c + k → p.wp (.cancelledAt n) ⟨w, c⟩ fun res t =>
    (∃ e, res = .error e) ∧ n ≤ t.clock

namespace Asks

variable {w : σ} {k : Nat} {r : Except ε α} {p : Prog C σ ε α}

theorem ofExcept (r : Except ε α) :
    Asks w 0 r (Prog.ofExcept r : Prog C σ ε α) where
  live _ _ _ := rfl
  sound _ c := ⟨rfl, Nat.le_refl c, .inl rfl⟩
  cut _ _ hc hn := absurd hn (Nat.not_lt.mpr hc)

theorem pure (a : α) : Asks w 0 (.ok a) (Pure.pure a : Prog C σ ε α) :=
  ofExcept (.ok a)

theorem throw (e : ε) :
    Asks w 0 (.error e) (Prog.throw e : Prog C σ ε α) :=
  ofExcept (.error e)

theorem query {c : C} {err : ε} (read : σ → Except ε α) :
    Asks w 1 (read w) (Prog.query c err read) where
  live o i ho := by
    have hlive : o i c = .none := ho 0 (by omega) c
    unfold Prog.query Prog.call
    rw [hlive]
  sound o i := by
    apply wp_query_of
    · exact ⟨rfl, Nat.le_succ i, .inl rfl⟩
    · exact ⟨rfl, Nat.le_succ i, .inr ⟨err, rfl⟩⟩
  cut n i hi hn := by
    have hfault : Oracle.cancelledAt n i c ≠ .none := by
      rw [Oracle.cancelledAt_of_le (by omega) c]
      exact Fault.noConfusion
    rw [wp_query_faulty hfault]
    refine ⟨⟨err, rfl⟩, ?_⟩
    show n ≤ i + 1
    omega

/-- Other errors. -/
theorem mapError (h : Asks w k r p) (f : ε → ε) :
    Asks w k (r.mapError f) (p.mapError f) where
  live o c ho := by
    unfold Prog.mapError
    rw [h.live o c ho]
  sound o c := by
    rw [wp_mapError]
    apply wp_mono (h.sound o c)
    intro res t ht
    refine ⟨ht.1, ht.2.1, ?_⟩
    cases ht.2.2 with
    | inl hres => exact .inl (congrArg _ hres)
    | inr herr =>
        obtain ⟨e, rfl⟩ := herr
        exact .inr ⟨f e, rfl⟩
  cut n c hc hn := by
    rw [wp_mapError]
    apply wp_mono (h.cut n c hc hn)
    intro res t ht
    obtain ⟨e, rfl⟩ := ht.1
    exact ⟨⟨f e, rfl⟩, ht.2⟩

/-- A program that looks at the world first. -/
theorem get_bind {q : σ → Prog C σ ε α} (h : Asks w k r (q w)) :
    Asks w k r (Prog.get >>= q) :=
  ⟨h.live, h.sound, h.cut⟩

/-- A sequence that ends with its first part. -/
theorem bind_error {e : ε} (h : Asks w k (.error e) p)
    (q : α → Prog C σ ε β) : Asks w k (.error e) (p >>= q) where
  live o c ho := by
    rw [bind_apply, h.live o c ho]
  sound o c := by
    apply wp_bind_of (h.sound o c)
    · exact fun e' t ht => ⟨ht.1, ht.2.1, .inr ⟨e', rfl⟩⟩
    · intro a t ht
      rcases ht.2.2 with ha | ⟨_, ha⟩ <;> cases ha
  cut n c hc hn := by
    apply wp_bind_of (h.cut n c hc hn)
    · exact fun e' t ht => ⟨⟨e', rfl⟩, ht.2⟩
    · intro a t ht
      obtain ⟨_, ha⟩ := ht.1
      cases ha

/-- **Sequencing.** -/
theorem bind {a : α} {j : Nat} {r : Except ε β} {q : α → Prog C σ ε β}
    (hp : Asks w k (.ok a) p) (hq : Asks w j r (q a)) :
    Asks w (k + j) r (p >>= q) where
  live o c ho := by
    have hfirst := hp.live o c fun i hi => ho i (by omega)
    have hrest := hq.live o (c + k) fun i hi d => by
      rw [Nat.add_assoc]
      exact ho (k + i) (by omega) d
    rw [bind_apply, hfirst]
    show q a o ⟨w, c + k⟩ = _
    rw [hrest, Nat.add_assoc]
  sound o c := by
    apply wp_bind_of (hp.sound o c)
    · exact fun e t ht => ⟨ht.1, ht.2.1, .inr ⟨e, rfl⟩⟩
    · rintro a' ⟨w', c'⟩ ⟨rfl, hclock, hres⟩
      rcases hres with ha | ⟨_, ha⟩
      · obtain rfl := Except.ok.inj ha
        apply wp_mono (hq.sound o c')
        exact fun _ _ ht => ⟨ht.1, Nat.le_trans hclock ht.2.1, ht.2.2⟩
      · cases ha
  cut n c hc hn := by
    by_cases hfirst : n < c + k
    · apply wp_bind_of (hp.cut n c hc hfirst)
      · exact fun e t ht => ⟨⟨e, rfl⟩, ht.2⟩
      · intro a' t ht
        obtain ⟨_, ha⟩ := ht.1
        cases ha
    · have hlive := hp.live (.cancelledAt n) c fun i hi d =>
        Oracle.cancelledAt_of_lt (by omega) d
      unfold wp
      rw [bind_apply, hlive]
      exact hq.cut n (c + k) (by omega) (by omega)

end Asks

end Hdns.Verified.Prog
