import Mathlib.Data.List.Basic

/-!
# Runs under a condition on each step

A run folds a step function over a list of events.  `Meets` says that each of its steps
starts from a state, and takes an event, that meet a given condition.
-/

namespace CMsgQueue.Runs

open List

universe u v

variable {σ : Type u} {ε : Type v}

/-- Every step of a run meets a condition on its event and the state it starts from. -/
def Meets (step : σ → ε → σ) (condition : σ → ε → Prop) : σ → List ε → Prop
  | _, [] => True
  | state, event :: events => condition state event ∧ Meets step condition (step state event) events

instance Meets.decidable (step : σ → ε → σ) (condition : σ → ε → Prop)
    [∀ state event, Decidable (condition state event)] :
    (state : σ) → (events : List ε) → Decidable (Meets step condition state events)
  | _, [] => inferInstanceAs (Decidable True)
  | state, event :: events =>
    haveI := Meets.decidable step condition (step state event) events
    inferInstanceAs (Decidable (_ ∧ _))

variable {step : σ → ε → σ} {inv : σ → Prop} {start : σ} {events : List ε}

/-- An invariant kept by the steps that meet a condition holds after every run of such
steps. -/
lemma Meets.invariant
    (kept : ∀ state event, inv state → condition state event → inv (step state event))
    (holds : inv start) (met : Meets step condition start events) :
    inv (events.foldl step start) := by
  induction events generalizing start with
  | nil => exact holds
  | cons event events ih => exact ih (kept start event holds met.1) met.2

/-- Let an invariant give a property, be kept by the steps that meet a condition, and let
every other step lose the property.  Then the property holds along a run if and only if every
step of it meets the condition. -/
lemma Meets.iff_property {property : σ → Prop} (gives : ∀ state, inv state → property state)
    (kept : ∀ state event, inv state → condition state event → inv (step state event))
    (needed : ∀ state event, inv state → property (step state event) → condition state event)
    (holds : inv start) :
    (∀ n, property ((events.take n).foldl step start)) ↔ Meets step condition start events := by
  induction events generalizing start with
  | nil => simp [Meets, gives start holds]
  | cons event events ih =>
    constructor
    · intro along
      have next : property (step start event) := by simpa using along 1
      have met := needed start event holds next
      refine ⟨met, (ih (kept start event holds met)).mp fun n => ?_⟩
      simpa using along (n + 1)
    intro met n
    cases n with
    | zero => exact gives start holds
    | succ n => exact (ih (kept start event holds met.1)).mpr met.2 n

/-- If the steps that keep an invariant are exactly those that meet a condition, then the
invariant holds along a run if and only if every step of it meets the condition. -/
lemma Meets.iff_invariant
    (kept : ∀ state event, inv state → (inv (step state event) ↔ condition state event))
    (holds : inv start) :
    (∀ n, inv ((events.take n).foldl step start)) ↔ Meets step condition start events :=
  Meets.iff_property (fun _ inv => inv) (fun state event inv => (kept state event inv).mpr)
    (fun state event inv => (kept state event inv).mp) holds

/-- Two conditions that agree under an invariant, which the steps that meet them keep, hold along
the same runs. -/
lemma Meets.iff_of_invariant {first second : σ → ε → Prop}
    (agree : ∀ state event, inv state → (first state event ↔ second state event))
    (kept : ∀ state event, inv state → second state event → inv (step state event))
    (holds : inv start) : Meets step first start events ↔ Meets step second start events := by
  induction events generalizing start with
  | nil => exact Iff.rfl
  | cons event events ih =>
    rw [Meets, agree start event holds]
    exact and_congr_right fun met => ih (kept start event holds met)

variable {α : Type u}

/-- Every entry of a history stands in a relation to the entries before it. -/
def Along (relation : List α → α → Prop) (history : List α) : Prop :=
  ∀ before entry after, history = before ++ entry :: after → relation before entry

lemma along_nil (relation : List α → α → Prop) : Along relation [] := by
  intro _ _ _ eq
  simp at eq

lemma along_concat {relation : List α → α → Prop} {history : List α} {entry : α} :
    Along relation (history ++ [entry]) ↔ Along relation history ∧ relation history entry := by
  constructor
  · intro along
    refine ⟨fun before other after eq => ?_, along history entry [] rfl⟩
    exact along before other (after ++ [entry]) (by rw [eq]; simp)
  rintro ⟨along, last⟩ before other after eq
  rcases eq_nil_or_concat after with rfl | ⟨front, _, rfl⟩
  · obtain ⟨rfl, same⟩ := append_inj' eq rfl
    rw [singleton_inj] at same
    exact same ▸ last
  rw [concat_eq_append, ← cons_append, ← append_assoc] at eq
  obtain ⟨rfl, -⟩ := append_inj' eq rfl
  exact along before other front rfl

variable {τ : Type*} {β : Type*}

def answers (call : σ → ε → σ × β) : σ → List ε → List β
  | _, [] => []
  | state, event :: events => (call state event).2 :: answers call (call state event).1 events

def after (call : σ → ε → σ × β) (state : σ) (events : List ε) : σ :=
  events.foldl (fun state event => (call state event).1) state

/-- A simulation returns the same and stays related. -/
lemma answers_eq_of_simulation {call : σ → ε → σ × β} {call' : τ → ε → τ × β}
    {rel : σ → τ → Prop}
    (simulates : ∀ s t event, rel s t →
      (call s event).2 = (call' t event).2 ∧ rel (call s event).1 (call' t event).1)
    {s : σ} {t : τ} (related : rel s t) (events : List ε) :
    answers call s events = answers call' t events ∧
      rel (after call s events) (after call' t events) := by
  induction events generalizing s t with
  | nil => exact ⟨rfl, related⟩
  | cons event events ih =>
    obtain ⟨same, next⟩ := simulates s t event related
    obtain ⟨rest, last⟩ := ih next
    exact ⟨by rw [answers, answers, same, rest], last⟩

def answersOf (call : σ → ε → σ × β) (keep : ε → Bool) : σ → List ε → List β
  | _, [] => []
  | state, event :: events =>
    if keep event then (call state event).2 :: answersOf call keep (call state event).1 events
    else answersOf call keep (call state event).1 events

/-- Removed calls that do not touch what the kept ones see change none of their answers. -/
lemma answersOf_eq_of_neutral {call : σ → ε → σ × β} {keep : ε → Bool} {neutral : σ → ε → Prop}
    {rel : σ → σ → Prop}
    (simulates : ∀ s t event, keep event = true → rel s t →
      (call s event).2 = (call t event).2 ∧ rel (call s event).1 (call t event).1)
    (ignores : ∀ s t event, keep event = false → neutral s event → rel s t → rel (call s event).1 t)
    {s t : σ} (related : rel s t)
    (met : Meets (fun s event => (call s event).1)
      (fun s event => keep event = false → neutral s event) s events) :
    answersOf call keep s events = answers call t (events.filter keep) := by
  induction events generalizing s t with
  | nil => rfl
  | cons event events ih =>
    cases kept : keep event with
    | true =>
      obtain ⟨same, next⟩ := simulates s t event kept related
      rw [answersOf, if_pos kept, filter_cons_of_pos kept, answers, same, ih next met.2]
    | false =>
      rw [answersOf, if_neg (by simp [kept]), filter_cons_of_neg (by simp [kept])]
      exact ih (ignores s t event kept (met.1 kept) related) met.2

end CMsgQueue.Runs
