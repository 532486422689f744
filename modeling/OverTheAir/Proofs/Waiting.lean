import Mathlib.Data.List.Induction
import OverTheAir.Device.Bench
import OverTheAir.Proofs.Refusals
import OverTheAir.Proofs.Tenure

/-!
# Proofs/Waiting — how long a task has waited for a message

The task of a session waits for one message after another, and reckons its time anew for each.  It
waits with an empty inbox and no abort on record (`Idles`), and what it has waited for is the time
that went by since it last came to wait (`Wait`): no more, for no time counts while the task is
elsewhere (`pass_of_call`), and no less, for only what is put into the inbox cuts a wait short
(`Wait.behind`), and what bounces off does not (`Idles.bounces`).

* `wait_run` — the wait behind a task that waits, with its length.
-/

namespace OverTheAir

/-! ## Time -/

/-- The milliseconds that go by at a move. -/
def Move.lasts : Move → Nat
  | .pass ms => ms
  | _ => 0

/-- The milliseconds that go by in a run. -/
def elapsed : List Move → Nat
  | [] => 0
  | m :: ms => m.lasts + elapsed ms

theorem elapsed_append (ms ns : List Move) : elapsed (ms ++ ns) = elapsed ms + elapsed ns := by
  induction ms with
  | nil => exact (Nat.zero_add _).symm
  | cons m ms ih => rw [List.cons_append, elapsed, elapsed, ih, Nat.add_assoc]

theorem elapsed_concat (ms : List Move) (m : Move) : elapsed (ms ++ [m]) = elapsed ms + m.lasts :=
  elapsed_append ms [m]

namespace Device

open Journal

variable {d d' : Device} {t t' : SessionTask} {k waited : Nat} {m : Move}

/-! ## A task that waits -/

/-- The task of the session waits for a message and has waited so long; there is none, and no abort
is on record. -/
structure Idles (d : Device) (k waited : Nat) : Prop where
  waits : ∃ t, d.HasTask k t ∧ t.stage = .awaiting waited
  empty : d.inbox = some []
  receiving : d.session.state = .receiving

/-- A wait of the task: it comes to wait with the last move of `front`, and waits all through
`mid`. -/
structure Wait (d : Device) (k : Nat) (front mid : List Move) : Prop where
  begins : ∃ front₀, front = front₀ ++ [.step (.task k)] ∧
    ∀ t waited, (d.run front₀).HasTask k t → t.stage ≠ .awaiting waited
  lasts : ∀ pre, pre <+: mid → (d.run (front ++ pre)).Idles k (elapsed pre)

/-- Waiting depends on session, inbox and task only. -/
theorem Idles.congr (h : d'.Idles k waited) (sessions : d'.sessions = d.sessions)
    (task : d'.task = d.task) (inbox : d'.inbox = d.inbox) (session : d'.session = d.session) :
    d.Idles k waited := by
  obtain ⟨⟨t, hasTask, hs⟩, empty, receiving⟩ := h
  exact ⟨⟨t, ⟨sessions ▸ hasTask.session, task ▸ hasTask.live⟩, hs⟩, inbox ▸ empty,
    session ▸ receiving⟩

/-- Time counts for a task that waits for a message, -/
theorem pass_of_awaiting (live : d.task = some t) (hs : t.stage = .awaiting waited) (ms : Nat) :
    d.move (.pass ms) = d.goto t (.awaiting (waited + ms)) := by
  change d.pass ms = _
  simp only [pass, live, hs]

/-- and for no other. -/
theorem pass_of_not_awaiting (h : ∀ t waited, d.task = some t → t.stage ≠ .awaiting waited)
    (ms : Nat) : d.move (.pass ms) = d := by
  change d.pass ms = d
  rw [pass]
  split
  · split
    · exact absurd ‹_› (h _ _ ‹_›)
    · rfl
  · rfl

/-! ## Whence a task comes that waits -/

/-- A step that leads a task to wait leads it there from elsewhere, and it has not waited yet. -/
theorem Advanced.comes_to_wait (hm : Advanced d t d') (live' : d'.task = some t')
    (hs' : t'.stage = .awaiting waited) :
    waited = 0 ∧ ∀ before, t.stage ≠ .awaiting before := by
  have next : ∀ {d₁ : Device} {t₁ isEnd}, (d₁.goto t₁ (.next isEnd)).task = some t' →
      waited = 0 := by
    intro d₁ t₁ isEnd live'
    cases isEnd <;> cases (stage_of_goto live').symm.trans hs'
    rfl
  cases hm with
  | told _ hs | untold hs | skipped hs | filled hs => exact ⟨next live', by simp [hs]⟩
  | woke hs =>
    cases (stage_of_goto live').symm.trans hs'
    exact ⟨rfl, by simp [hs]⟩
  | @called call r _ _ calls =>
    have after := (stage_of_goto live').symm.trans hs'
    obtain ⟨hs, -⟩ | ⟨_, _, hs, -⟩ | ⟨hs, -⟩ | ⟨hs, -⟩ | ⟨_, hs, -⟩ := Stage.call?_cases calls <;>
      rw [hs] at after <;> rcases r with e | ⟨⟩ <;> cases after
  | died | miscounted | left => cases live'
  | _ => cases (stage_of_goto live').symm.trans hs'

/-- A task that waits behind a step of its own has come to wait with it. -/
theorem Idles.stepped (h : d'.Idles k waited) (hasTask : d.HasTask k t) (hm : Advanced d t d') :
    waited = 0 ∧ ∀ t before, d.HasTask k t → t.stage ≠ .awaiting before := by
  obtain ⟨t', h', hs'⟩ := h.waits
  obtain ⟨zero, elsewhere⟩ := hm.comes_to_wait h'.live hs'
  refine ⟨zero, fun t₁ before h₁ => ?_⟩
  obtain rfl := hasTask.unique h₁
  exact elsewhere before

/-- A task that waits behind a request has waited through it. -/
theorem Idles.requested (h : d'.Idles k waited) (counted : k ≤ d.sessions) (hm : Handled d m d') :
    d.Idles k waited := by
  cases hm with
  | opened =>
    obtain ⟨t', h', -⟩ := h.waits
    have more : d.sessions + 1 = k := h'.session
    omega
  | unopened | recorded => cases h.receiving
  | queued => exact absurd (Option.some.inj h.empty) (by simp)
  | _ => exact h.congr rfl rfl rfl rfl

/-- A task that waits when time has gone by has waited before. -/
theorem Idles.passed {ms : Nat} (h : (d.move (.pass ms)).Idles k waited) :
    ∃ before, d.Idles k before ∧ waited = before + ms := by
  by_cases awaits : ∃ t before, d.task = some t ∧ t.stage = .awaiting before
  · obtain ⟨t, before, live, hs⟩ := awaits
    rw [pass_of_awaiting live hs] at h
    obtain ⟨⟨t', h', hs'⟩, empty, receiving⟩ := h
    cases (stage_of_goto h'.live).symm.trans hs'
    exact ⟨before, ⟨⟨t, ⟨h'.session, live⟩, hs⟩, empty, receiving⟩, rfl⟩
  · have still : d.move (.pass ms) = d :=
      pass_of_not_awaiting (fun t before live hs => awaits ⟨t, before, live, hs⟩) ms
    rw [still] at h
    obtain ⟨t, h', hs⟩ := h.waits
    exact absurd ⟨t, waited, h'.live, hs⟩ awaits

/-- **Whence a task comes that waits**: it comes to wait with its own step, or has waited before,
for as long but for the time that goes by now. -/
theorem Idles.came (h : (d.move m).Idles k waited) (counted : k ≤ d.sessions) :
    (m = .step (.task k) ∧ waited = 0 ∧ ∀ t before, d.HasTask k t → t.stage ≠ .awaiting before) ∨
      ∃ before, d.Idles k before ∧ waited = before + m.lasts := by
  -- only when time goes by does a wait get longer
  by_cases passes : ∃ ms, m = .pass ms
  · obtain ⟨ms, rfl⟩ := passes
    exact .inr h.passed
  have lasts : m.lasts = 0 := by
    cases m with
    | pass ms => exact absurd ⟨ms, rfl⟩ passes
    | _ => rfl
  have onward : d.Idles k waited → ∃ before, d.Idles k before ∧ waited = before + m.lasts :=
    fun idled => ⟨waited, idled, by rw [lasts, Nat.add_zero]⟩
  have hm := d.moved m
  generalize d.move m = d' at hm h
  cases hm with
  | handled hm => exact .inr (onward (h.requested counted hm))
  | @advanced t _ live hm =>
    obtain ⟨t', h', -⟩ := h.waits
    obtain ⟨t₁, hasTask⟩ := h'.before counted (.advanced live hm)
    obtain rfl := Option.some.inj (live.symm.trans hasTask.live)
    exact .inl ⟨congrArg Move.step hasTask.actor, h.stepped hasTask hm⟩
  | performed _ hm =>
    obtain ⟨effect, takes, does⟩ := hm
    exact .inr (onward (h.congr rfl rfl rfl rfl))
  | waited ms | @passed ms => exact absurd ⟨ms, rfl⟩ passes
  | _ => exact .inr (onward (h.congr rfl rfl rfl rfl))

/-- **The wait behind a task that waits** has lasted as long as the task has waited. -/
theorem wait_run (counted : k ≤ d.sessions) (awake : ∀ waited, ¬d.Idles k waited) (ms : List Move)
    (idles : (d.run ms).Idles k waited) :
    ∃ front mid, ms = front ++ mid ∧ d.Wait k front mid ∧ elapsed mid = waited := by
  -- from the end of the run back to where the task came to wait
  induction ms using List.reverseRecOn generalizing waited with
  | nil => exact absurd idles (awake waited)
  | append_singleton ms m ih =>
    have counted' : k ≤ (d.run ms).sessions := run_induction (motive := fun d' => k ≤ d'.sessions)
      counted (fun le hm => Nat.le_trans le hm.sessions_le) ms
    have idles' := idles
    rw [run_concat] at idles'
    obtain ⟨rfl, rfl, elsewhere⟩ | ⟨before, idled, rfl⟩ := idles'.came counted'
    · refine ⟨ms ++ [.step (.task k)], [], (List.append_nil _).symm, ⟨⟨ms, rfl, elsewhere⟩, ?_⟩,
        rfl⟩
      intro pre hpre
      rw [List.prefix_nil.mp hpre, List.append_nil]
      exact idles
    · obtain ⟨front, mid, rfl, wait, rfl⟩ := ih idled
      refine ⟨front, mid ++ [m], List.append_assoc .., ⟨wait.begins, fun pre hpre => ?_⟩,
        elapsed_concat mid m⟩
      rcases List.prefix_concat_iff.mp hpre with rfl | hpre
      · rw [← List.append_assoc, elapsed_concat]
        exact idles
      · exact wait.lasts pre hpre

/-! ## What cuts a wait short, and what does not -/

/-- A wait begins behind every move that leaves something in the inbox. -/
theorem Wait.behind {front mid pre post : List Move} (h : d.Wait k front mid)
    (split : front ++ mid = pre ++ m :: post) (filled : ((d.run pre).move m).inbox ≠ some []) :
    ∃ post₁, front = pre ++ m :: post₁ ∧ post = post₁ ++ mid := by
  have outside : ∀ a, pre = front ++ a → ¬a ++ [m] <+: mid := fun a hpre hmid => by
    have idles := h.lasts _ hmid
    rw [← List.append_assoc, ← hpre, run_concat] at idles
    exact filled idles.empty
  rcases List.append_eq_append_iff.mp split with ⟨a, hpre, hmid⟩ | ⟨c, hfront, hpost⟩
  · refine absurd ?_ (outside a hpre)
    rw [hmid]
    exact ⟨post, List.append_assoc ..⟩
  · rcases List.cons_eq_append_iff.mp hpost with ⟨rfl, rfl⟩ | ⟨post₁, rfl, rfl⟩
    · refine absurd ?_ (outside [] ?_)
      · exact ⟨post, rfl⟩
      · rw [hfront, List.append_nil, List.append_nil]
    · exact ⟨post₁, hfront, rfl⟩

end Device

end OverTheAir
