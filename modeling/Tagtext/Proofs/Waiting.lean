import Tagtext.Proofs.Halted

/-!
# Work under a watch

Work that nothing stops takes its steps one after the other, each at a time that
follows from the waits before it (`Work.steps`).  A watch sees to it that it is
stopped in a step that waits: when the token is cancelled before the wait is
over, or just then if that comes first (`Work.Caught`), or when the run is out
of time by then.

    not stopped in any wait     it ends with its own last step, kept as it is
    caught in a wait            it is abandoned, as cancelled or out of time
    out of time in a wait       it is abandoned

What comes of work under a watch says all of this (`Work.comes_proceed`); the
token comes before the deadline, so work is abandoned as out of time only while
the token is not cancelled.
-/

namespace Tagtext

/-! ## Steps -/

/-- The steps of work that nothing stops, from time `c.now` on: what is left to do from each step on,
and the clock at which it is taken. -/
def Work.steps (c : Clock) : Work → List (Work × Clock)
  | finish result context cancels => [(finish result context cancels, c)]
  | pause ms context cancels next =>
    (pause ms context cancels next, c) ::
      next.steps { c.note cancels with now := c.now + ms }
  | hang context cancels => [(hang context cancels, c)]

/-- The token stops a wait from `c` on, which is over at time `till` if it ever is: the token is
cancelled when the wait begins, or another party cancels it before the wait is over, or just then if
that comes first or the run is out of time as well. -/
def Watch.Catches (w : Watch) (c : Clock) (till : Option Nat) : Prop :=
  w.isCancelled c = true ∨ w.hasToken = true ∧ ∃ t, w.cancelAt = some t ∧
    ∀ u, till = some u → t < u ∨ t = u ∧ (w.cancelsFirst = true ∨ w.deadline.any (· ≤ u) = true)

/-- The token stops work in its first step, which is taken at `c`. -/
def Work.CaughtFirst (w : Watch) (c : Clock) : Work → Prop
  | finish _ _ _ => False
  | pause ms _ cancels _ => w.Catches (c.note cancels) (some (c.now + ms))
  | hang _ cancels => w.Catches (c.note cancels) none

/-- The token is cancelled while work that begins at `c` waits in one of its steps. -/
def Work.Caught (w : Watch) (c : Clock) (work : Work) : Prop :=
  ∃ step ∈ work.steps c, step.1.CaughtFirst w step.2

/-! ## Waits -/

/-- What comes of a wait: nothing stops it, or the token does, or the deadline. -/
inductive Watch.Waits (w : Watch) (c : Clock) (till : Option Nat) : Option (Halt × Nat) → Prop
  | passed (hc : ¬ w.Catches c till)
      (hd : ∀ D, w.deadline = some D → ∃ u, till = some u ∧ u < D) : Waits w c till none
  | cancelled (t : Nat) (hc : w.Catches c till)
      (ht : w.isCancelled { c with now := t } = true) : Waits w c till (some (.cancelled, t))
  | timedOut (t : Nat) (hle : ∀ u, till = some u → t ≤ u)
      (ht : w.isExpired { c with now := t } = true)
      (hc : w.isCancelled { c with now := t } = false) : Waits w c till (some (.timedOut, t))

namespace Watch

theorem isCancelled_at (w : Watch) {c : Clock} {t : Nat} (h : c.now ≤ t) :
    w.isCancelled { c with now := t } = (w.cancellation? c).any (· ≤ t) := by
  unfold isCancelled cancellation?
  cases w.hasToken with
  | false => rfl
  | true =>
    cases c.cancelled with
    | true => simp [h]
    | false => cases w.cancelAt <;> simp [h]

theorem isExpired_at (w : Watch) {c : Clock} {t : Nat} (h : c.now ≤ t) :
    w.isExpired { c with now := t } = (w.expiry? c).any (· ≤ t) := by
  unfold isExpired expiry?
  cases w.deadline <;> simp [h]

/-- A deadline that has not come when a wait is over. -/
theorem lt_deadline {w : Watch} {c : Clock} {u : Nat} (h : c.now ≤ u)
    (hd : ∀ D, w.expiry? c = some D → u < D) : ∀ D, w.deadline = some D → u < D := by
  intro D hD
  have := hd (max c.now D) (by rw [expiry?, hD]; rfl)
  omega

/-- Whether the token stops a wait follows from when it stops the run. -/
theorem catches_iff (w : Watch) (c : Clock) {till : Option Nat} (h : ∀ u, till = some u → c.now ≤ u) :
    w.Catches c till ↔ ∃ t, w.cancellation? c = some t ∧ (t ≤ c.now ∨ ∀ u, till = some u →
      t < u ∨ t = u ∧ (w.cancelsFirst = true ∨ (w.expiry? c).any (· ≤ u) = true)) := by
  unfold Catches
  rw [isCancelled_eq]
  have hexpiry : ∀ u, till = some u →
      (w.expiry? c).any (· ≤ u) = w.deadline.any (· ≤ u) := by
    intro u hu
    have := h u hu
    unfold expiry?
    cases w.deadline <;> simp [this]
  unfold cancellation?
  cases w.hasToken with
  | false => simp
  | true =>
    cases c.cancelled with
    | true => simp
    | false =>
      cases w.cancelAt with
      | none => simp
      | some t =>
        simp only [Bool.not_true, Bool.false_eq_true, if_false, Option.map_some, Option.any_some,
          decide_eq_true_eq, true_and, Option.some.injEq, exists_eq_left']
        by_cases ht : t ≤ c.now
        · simp [ht]
        · have hmax : max c.now t = t := by omega
          simp only [hmax, ht, false_or]
          constructor
          · intro hu u hu'
            rw [hexpiry u hu']
            exact hu u hu'
          · intro hu u hu'
            rw [← hexpiry u hu']
            exact hu u hu'

section
variable {w : Watch} {c : Clock} {t : Nat}

theorem Waits.of_token {till : Option Nat} (h : ∀ u, till = some u → c.now ≤ u)
    (ht : w.cancellation? c = some t) (hcatch : t ≤ c.now ∨ ∀ u, till = some u →
      t < u ∨ t = u ∧ (w.cancelsFirst = true ∨ (w.expiry? c).any (· ≤ u) = true)) :
    w.Waits c till (some (.cancelled, t)) := by
  refine .cancelled t ((w.catches_iff c h).2 ⟨t, ht, hcatch⟩) ?_
  rw [isCancelled_at w (now_le_of_cancellation? ht), ht]
  simp

theorem Waits.of_deadline {till : Option Nat} (ht : w.expiry? c = some t)
    (hle : ∀ u, till = some u → t ≤ u) (hc : ∀ u, w.cancellation? c = some u → t < u) :
    w.Waits c till (some (.timedOut, t)) := by
  have hnow := now_le_of_expiry? ht
  refine .timedOut t hle ?_ ?_
  · rw [isExpired_at w hnow, ht]
    simp
  · rw [isCancelled_at w hnow]
    cases hcancel : w.cancellation? c with
    | none => rfl
    | some u => simpa using hc u hcancel

/-- A wait is over when the token does not come before and the deadline not by then. -/
theorem Waits.of_later {till : Nat} (h : c.now ≤ till)
    (htoken : ∀ t, w.cancellation? c = some t →
      c.now < t ∧ till ≤ t ∧ (w.cancelsFirst = true → till < t))
    (hd : ∀ D, w.expiry? c = some D → till < D) : w.Waits c (some till) none := by
  refine .passed ?_ fun D hD => ⟨till, rfl, lt_deadline h hd D hD⟩
  rw [catches_iff w c (by simpa using h)]
  rintro ⟨t, ht, hcatch⟩
  obtain ⟨hnow, htill, hlater⟩ := htoken t ht
  rcases hcatch with hle | hcatch
  · omega
  · rcases hcatch till rfl with hlt | ⟨heq, hfirst | hany⟩
    · omega
    · have := hlater hfirst
      omega
    · cases he : w.expiry? c with
      | none =>
        rw [he] at hany
        cases hany
      | some D =>
        have := hd D he
        simp only [he, Option.any_some, decide_eq_true_eq] at hany
        omega

end

/-- The earlier of token and deadline stops a run that waits for ever, the token at the same time. -/
theorem halt?_cases (w : Watch) (c : Clock) :
    (w.halt? c = none ∧ w.cancellation? c = none ∧ w.expiry? c = none) ∨
    (∃ t, w.halt? c = some (.cancelled, t) ∧ w.cancellation? c = some t ∧
      ∀ d, w.expiry? c = some d → t ≤ d) ∨
    ∃ d, w.halt? c = some (.timedOut, d) ∧ w.expiry? c = some d ∧
      ∀ t, w.cancellation? c = some t → d < t := by
  unfold halt?
  cases hc : w.cancellation? c with
  | none =>
    cases he : w.expiry? c with
    | none => exact Or.inl ⟨rfl, rfl, rfl⟩
    | some d => exact Or.inr (Or.inr ⟨d, rfl, rfl, by simp⟩)
  | some t =>
    cases he : w.expiry? c with
    | none => exact Or.inr (Or.inl ⟨t, rfl, rfl, by simp⟩)
    | some d =>
      by_cases htd : t ≤ d
      · exact Or.inr (Or.inl ⟨t, by simp [htd], rfl, by simpa using htd⟩)
      · exact Or.inr (Or.inr ⟨d, by simp [htd], rfl, by simpa using htd⟩)

/-- A wait for a time comes to one of the listed things. -/
theorem waits_haltWait? (w : Watch) (c : Clock) {till : Nat} (h : c.now ≤ till) :
    w.Waits c (some till) (w.haltWait? c till) := by
  have hall : ∀ u, some till = some u → c.now ≤ u := by simpa using h
  unfold haltWait? haltBy?
  rcases w.halt?_cases c with ⟨hh, hc, he⟩ | ⟨t, hh, hc, he⟩ | ⟨d, hh, he, hc⟩
  · rw [hh]
    exact .of_later h (by simp [hc]) (by simp [he])
  · by_cases hcond : t ≤ till ∧ (w.cancelsFirst = true ∨ t < till ∨ t ≤ c.now ∨
        (w.expiry? c).any (· ≤ till) = true)
    · have hstop : w.Waits c (some till) (some (.cancelled, t)) := by
        refine .of_token hall hc ?_
        simp only [Option.some.injEq, forall_eq']
        obtain ⟨htill, hcond⟩ := hcond
        rcases Nat.lt_or_eq_of_le htill with hlt | heq
        · exact Or.inr (Or.inl hlt)
        · rcases hcond with hfirst | hlt | hnow | hany
          · exact Or.inr (Or.inr ⟨heq, Or.inl hfirst⟩)
          · exact Or.inr (Or.inl hlt)
          · exact Or.inl hnow
          · exact Or.inr (Or.inr ⟨heq, Or.inr hany⟩)
      simpa [hh, hcond, Option.filter_some, or_assoc] using hstop
    · have hover : w.Waits c (some till) none := by
        refine .of_later h ?_ fun D hD => ?_
        · intro t' ht'
          rw [hc] at ht'
          cases ht'
          refine ⟨by omega, by omega, fun hfirst => ?_⟩
          by_contra hle
          exact hcond ⟨Nat.not_lt.1 hle, Or.inl hfirst⟩
        · by_contra hle
          have := he D hD
          exact hcond ⟨by omega, Or.inr (Or.inr (Or.inr (by simp [hD]; omega)))⟩
      rw [hh, Option.filter_filter, Option.filter_some, if_neg]
      · exact hover
      · simpa [or_assoc] using hcond
  · by_cases hd : d ≤ till
    · have hstop : w.Waits c (some till) (some (.timedOut, d)) :=
        .of_deadline he (by simpa using hd) hc
      simpa [hh, hd, Option.filter_some] using hstop
    · have hover : w.Waits c (some till) none := by
        refine .of_later h ?_ ?_
        · intro t ht
          have := hc t ht
          omega
        · rw [he]
          simpa using hd
      simpa [hh, hd, Option.filter_some] using hover

/-- A wait that is never over comes to one of the listed things. -/
theorem waits_halt? (w : Watch) (c : Clock) : w.Waits c none (w.halt? c) := by
  rcases w.halt?_cases c with ⟨hh, hc, he⟩ | ⟨t, hh, hc, _⟩ | ⟨d, hh, he, hc⟩
  · rw [hh]
    refine .passed ?_ fun D hD => ?_
    · rw [catches_iff w c (by simp), hc]
      simp
    · rw [expiry?, hD] at he
      cases he
  · rw [hh]
    exact .of_token (by simp) hc (by simp)
  · rw [hh]
    exact .of_deadline he (by simp) hc

/-- A wait that is not over before the run is stopped is stopped then. -/
theorem await_of_halt? {w : Watch} {c : Clock} {ms : Option Nat} {cause : Halt} {t : Nat}
    (h : w.halt? c = some (cause, t)) (hle : ∀ n, ms = some n → t ≤ c.now + n) :
    w.await c ms = (some cause, { c with now := t }) := by
  cases ms with
  | some n =>
    have hby : w.haltBy? c (c.now + n) = some (cause, t) := by
      simpa [haltBy?, h, Option.filter_some] using hle n rfl
    simp only [await, hby]
  | none => simp only [await, h]

/-- A wait is over where the token is not cancelled and the run not out of time by then. -/
theorem await_of_not_over {w : Watch} {c : Clock} {n : Nat}
    (hc : w.isCancelled { c with now := c.now + n } = false)
    (he : w.isExpired { c with now := c.now + n } = false) :
    w.await c (some n) = (none, { c with now := c.now + n }) := by
  rw [isCancelled_at w (Nat.le_add_right _ _)] at hc
  rw [isExpired_at w (Nat.le_add_right _ _)] at he
  have hby : w.haltBy? c (c.now + n) = none := by
    unfold haltBy?
    rcases w.halt?_cases c with ⟨hh, _, _⟩ | ⟨t, hh, ht, _⟩ | ⟨d, hh, hd, _⟩
    · rw [hh]
      rfl
    · simpa [hh, ht, Option.filter_some] using hc
    · simpa [hh, hd, Option.filter_some] using he
  simp only [await, hby]

end Watch

/-! ## What comes of work -/

/-- What comes of work that begins at `c`. -/
inductive Work.Comes (w : Watch) (c : Clock) (work : Work) : Performance → Prop
  /-- It ends with its last step, which is kept even if the token is cancelled in it. -/
  | finished (result : Except HandlerError Text) (context : Context) (cancels : Bool) (c' : Clock)
      (hmem : (finish result context cancels, c') ∈ work.steps c) (hc : ¬ work.Caught w c) :
      Comes w c work (.finished result context (c'.note cancels))
  | cancelled (context : Context) (c' : Clock) (hc : work.Caught w c)
      (ht : w.isCancelled c' = true) : Comes w c work (.abandoned .cancelled context c')
  | timedOut (context : Context) (c' : Clock) (ht : w.isExpired c' = true)
      (hc : w.isCancelled c' = false) : Comes w c work (.abandoned .timedOut context c')
  /-- It never ends, and nothing will ever stop it. -/
  | stalled (context : Context) (c' : Clock) (hc : ¬ work.Caught w c) (hd : w.deadline = none)
      (htoken : w.hasToken = true → w.cancelAt = none ∧ c'.cancelled = false)
      (hnever : work.duration = none) : Comes w c work (.abandoned .stalled context c')

namespace Work

variable {w : Watch} {c : Clock}

theorem caught_pause {ms : Nat} {context : Context} {cancels : Bool} {next : Work} :
    (pause ms context cancels next).Caught w c ↔ w.Catches (c.note cancels) (some (c.now + ms)) ∨
      next.Caught w { c.note cancels with now := c.now + ms } := by
  simp [Caught, steps, CaughtFirst]

theorem caught_hang {context : Context} {cancels : Bool} :
    (hang context cancels).Caught w c ↔ w.Catches (c.note cancels) none := by
  simp [Caught, steps, CaughtFirst]

theorem not_caught_finish {result : Except HandlerError Text} {context : Context} {cancels : Bool} :
    ¬ (finish result context cancels).Caught w c := by
  simp [Caught, steps, CaughtFirst]

/-- **Work under a watch comes to one of the listed things.** -/
theorem comes_proceed (w : Watch) (work : Work) : ∀ c, work.Comes w c (work.proceed w c) := by
  induction work with
  | finish result context cancels =>
    intro c
    exact .finished result context cancels c (List.mem_singleton.2 rfl) not_caught_finish
  | pause ms context cancels next ih =>
    intro c
    have hwait := w.waits_haltWait? (c.note cancels) (Nat.le_add_right (c.note cancels).now ms)
    have hcaught : (pause ms context cancels next).Caught w c ↔
        w.Catches (c.note cancels) (some (c.now + ms)) ∨
          next.Caught w { c.note cancels with now := c.now + ms } := caught_pause
    simp only [proceed]
    generalize w.haltWait? (c.note cancels) ((c.note cancels).now + ms) = halt at hwait
    cases hwait with
    | cancelled t hcatch ht => exact .cancelled context _ (hcaught.2 (Or.inl hcatch)) ht
    | timedOut t hle ht hc => exact .timedOut context _ ht hc
    | passed hfirst hd =>
      have hnext := ih { c.note cancels with now := c.now + ms }
      have hnot : (pause ms context cancels next).Caught w c ↔
          next.Caught w { c.note cancels with now := c.now + ms } := by
        rw [hcaught]
        exact or_iff_right hfirst
      show Comes w c _ (next.proceed w { c.note cancels with now := c.now + ms })
      generalize next.proceed w { c.note cancels with now := c.now + ms } = o at hnext ⊢
      cases hnext with
      | finished result after cancels' c' hmem hc =>
        exact .finished result after cancels' c' (List.mem_cons_of_mem _ hmem) (mt hnot.1 hc)
      | cancelled after c' hc ht => exact .cancelled after c' (hnot.2 hc) ht
      | timedOut after c' ht hc => exact .timedOut after c' ht hc
      | stalled after c' hc hd htoken hnever =>
        exact .stalled after c' (mt hnot.1 hc) hd htoken (by simp [duration, hnever])
  | hang context cancels =>
    intro c
    have hwait := w.waits_halt? (c.note cancels)
    simp only [proceed]
    generalize w.halt? (c.note cancels) = halt at hwait
    cases hwait with
    | cancelled t hcatch ht => exact .cancelled context _ (caught_hang.2 hcatch) ht
    | timedOut t hle ht hc => exact .timedOut context _ ht hc
    | passed hc hd =>
      have hdeadline : w.deadline = none := by
        cases h : w.deadline with
        | none => rfl
        | some D =>
          obtain ⟨u, hu, _⟩ := hd D h
          cases hu
      refine .stalled context _ (mt caught_hang.1 hc) hdeadline (fun htoken => ?_) rfl
      simp only [Watch.Catches, Watch.isCancelled, htoken, Bool.true_and, true_and, not_or] at hc
      obtain ⟨hnow, hnever⟩ := hc
      cases hat : w.cancelAt with
      | none => simpa [hat] using hnow
      | some t => exact absurd ⟨t, hat, by simp⟩ hnever

/-- Work that ends is not caught. -/
theorem not_caught_of_finished {work : Work} {result : Except HandlerError Text}
    {after : Context} {c' : Clock} (h : work.proceed w c = .finished result after c') :
    ¬ work.Caught w c := by
  have hcomes := work.comes_proceed w c
  rw [h] at hcomes
  cases hcomes with
  | finished _ _ _ _ _ hc => exact hc

/-- Work that is caught is abandoned, as cancelled or out of time. -/
theorem proceed_of_caught {work : Work} (h : work.Caught w c) :
    ∃ cause after c', work.proceed w c = .abandoned cause after c' ∧
      (cause = .cancelled ∨ cause = .timedOut) := by
  have hcomes := work.comes_proceed w c
  generalize work.proceed w c = o at hcomes
  cases hcomes with
  | finished _ _ _ _ _ hc => exact absurd h hc
  | cancelled after c' => exact ⟨_, after, c', rfl, Or.inl rfl⟩
  | timedOut after c' => exact ⟨_, after, c', rfl, Or.inr rfl⟩
  | stalled _ _ hc => exact absurd h hc

/-- The last step of work is taken after all waits. -/
theorem le_of_mem_steps {work : Work} : ∀ {c : Clock} {step : Work × Clock}, step ∈ work.steps c →
    c.now ≤ step.2.now := by
  induction work with
  | finish result context cancels =>
    intro c step h
    rw [List.mem_singleton.1 h]
  | pause ms context cancels next ih =>
    intro c step h
    rcases List.mem_cons.1 h with rfl | h
    · exact Nat.le_refl _
    · exact Nat.le_trans (Nat.le_add_right c.now ms) (ih h)
  | hang context cancels =>
    intro c step h
    rw [List.mem_singleton.1 h]

/-- **Work that is not caught, and that ends in time, ends as it would by itself.** -/
theorem proceed_of_not_caught {w : Watch} {result : Except HandlerError Text} {after : Context}
    {cancels' : Bool} {c' : Clock} {work : Work} : ∀ {c : Clock}, ¬ work.Caught w c →
    (finish result after cancels', c') ∈ work.steps c → w.isExpired c' = false →
    work.proceed w c = .finished result after (c'.note cancels') := by
  induction work with
  | finish result' context cancels =>
    intro c _ hmem _
    cases List.mem_singleton.1 hmem
    rfl
  | pause ms context cancels next ih =>
    intro c hc hmem hexpired
    have hmem : (finish result after cancels', c') ∈
        next.steps { c.note cancels with now := c.now + ms } := by
      simpa [steps] using hmem
    rw [caught_pause, not_or] at hc
    have hwait : w.Waits (c.note cancels) (some (c.now + ms))
        (w.haltWait? (c.note cancels) (c.now + ms)) :=
      w.waits_haltWait? (c.note cancels) (Nat.le_add_right c.now ms)
    have hnone : w.haltWait? (c.note cancels) (c.now + ms) = none := by
      generalize w.haltWait? (c.note cancels) (c.now + ms) = halt at hwait
      cases hwait with
      | passed => rfl
      | cancelled t hcatch ht => exact absurd hcatch hc.1
      | timedOut t hle ht _ =>
        have htill := le_of_mem_steps hmem
        have := hle _ rfl
        simp only [Watch.isExpired] at ht hexpired
        cases hd : w.deadline with
        | none => simp [hd] at ht
        | some D =>
          simp only [hd, Option.any_some, decide_eq_true_eq, decide_eq_false_iff_not] at ht hexpired
          simp only at htill
          omega
    simp only [proceed]
    rw [show (c.note cancels).now = c.now from rfl, hnone]
    exact ih hc.2 hmem hexpired
  | hang context cancels =>
    intro c _ hmem _
    cases List.mem_singleton.1 hmem

end Work

end Tagtext
