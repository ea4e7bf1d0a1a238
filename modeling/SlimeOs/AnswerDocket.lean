import Mathlib.Logic.Function.Basic
import Mathlib.Logic.Relation

/-!
Dockets: tables of open questions, each with the answer it stands at if it has one, from which
answers are announced one by one.

An answer may be overruled only by one that agrees with whatever agreed with it. If every
question is new when it is entered, then all answers ever announced to one question agree.
-/

namespace SlimeOs

open List

structure Docket (Place Question Answer : Type) where
  entries : Place → Option (Question × Option Answer)
  announced : List (Question × Answer)

namespace Docket

variable {Place Question Answer : Type}

/-- The question is neither open nor was it ever answered. -/
structure Fresh (d : Docket Place Question Answer) (question : Question) : Prop where
  unlisted : ∀ place given, d.entries place ≠ some (question, given)
  unanswered : ∀ answer, (question, answer) ∉ d.announced

section

variable (Agree : Answer → Answer → Prop)

/-- Whatever agrees with the given answer agrees with the one that overrules it. -/
def Yields (given answer : Answer) : Prop := ∀ other, Agree other given → Agree other answer

inductive Step [DecidableEq Place] (d : Docket Place Question Answer) :
    Docket Place Question Answer → Prop where
  | opened {place : Place} {question : Question} {given : Option Answer}
      (fresh : d.Fresh question) :
      Step d { d with entries := Function.update d.entries place (some (question, given)) }
  | closed {place : Place} :
      Step d { d with entries := Function.update d.entries place none }
  | ruled {place : Place} {question : Question} {given : Option Answer} {answer : Answer}
      (found : d.entries place = some (question, given))
      (yields : ∀ old ∈ given, Yields Agree old answer) :
      Step d { d with entries := Function.update d.entries place (some (question, some answer)) }
  | announced {place : Place} {question : Question} {answer : Answer}
      (found : d.entries place = some (question, some answer)) :
      Step d { d with announced := d.announced ++ [(question, answer)] }

structure Consistent (d : Docket Place Question Answer) : Prop where
  distinct : ∀ place place' question given given', d.entries place = some (question, given) →
    d.entries place' = some (question, given') → place = place'
  standing : ∀ place question given, d.entries place = some (question, given) →
    ∀ answer, (question, answer) ∈ d.announced → ∃ current ∈ given, Agree answer current
  agree : ∀ question answer answer', (question, answer) ∈ d.announced →
    (question, answer') ∈ d.announced → Agree answer answer'

end

theorem update_cases [DecidableEq Place] {α : Type} {entries : Place → Option α}
    {place place' : Place} {entry : Option α} {a : α}
    (h : Function.update entries place entry place' = some a) :
    place' = place ∧ entry = some a ∨ place' ≠ place ∧ entries place' = some a := by
  rwa [Function.update_apply, ite_eq_iff] at h

variable [DecidableEq Place] {Agree : Answer → Answer → Prop}
  {d d' : Docket Place Question Answer}

/-- An entry may go, with its question, to an answer that agrees with those announced to it. -/
theorem Consistent.replaced (h : d.Consistent Agree) {place : Place} {question : Question}
    {given : Option Answer} (hquestion : ∀ place' given',
      d.entries place' = some (question, given') → place' = place)
    (hstanding : ∀ answer, (question, answer) ∈ d.announced → ∃ current ∈ given,
      Agree answer current) :
    Consistent Agree
      { d with entries := Function.update d.entries place (some (question, given)) } := by
  refine ⟨?_, ?_, h.agree⟩
  · intro p q asked first second hp hq
    rcases update_cases hp with ⟨rfl, hentry⟩ | ⟨-, hpold⟩ <;>
      rcases update_cases hq with ⟨rfl, hentry'⟩ | ⟨-, hqold⟩
    · rfl
    · cases hentry
      exact (hquestion q second hqold).symm
    · cases hentry'
      exact hquestion p first hpold
    · exact h.distinct p q asked first second hpold hqold
  · intro p asked first hp
    rcases update_cases hp with ⟨-, hentry⟩ | ⟨-, hp⟩
    · cases hentry
      exact hstanding
    · exact h.standing p asked first hp

theorem consistent_step (hrefl : ∀ answer, Agree answer answer)
    (hsymm : ∀ answer answer', Agree answer answer' → Agree answer' answer)
    (h : d.Consistent Agree) (hstep : Step Agree d d') : d'.Consistent Agree := by
  cases hstep with
  | opened fresh =>
    apply h.replaced
    · exact fun place given hentry => absurd hentry (fresh.unlisted place given)
    · exact fun answer hanswer => absurd hanswer (fresh.unanswered answer)
  | @closed place =>
    have hold {place' : Place} {entry : Question × Option Answer}
        (hentry : Function.update d.entries place none place' = some entry) :
        d.entries place' = some entry := by
      rcases update_cases hentry with ⟨-, hnone⟩ | ⟨-, hentry⟩
      · nomatch hnone
      · exact hentry
    refine ⟨?_, ?_, h.agree⟩
    · exact fun p q asked first second hp hq =>
        h.distinct p q asked first second (hold hp) (hold hq)
    · exact fun p asked first hp => h.standing p asked first (hold hp)
  | @ruled place question given answer found yields =>
    apply h.replaced
    · exact fun place' given' hentry => h.distinct place' place question given' given hentry found
    · intro other hother
      obtain ⟨current, hcurrent, hagree⟩ := h.standing place question given found other hother
      exact ⟨answer, rfl, yields current hcurrent other hagree⟩
  | @announced place question answer found =>
    -- What was announced to the question before agrees with where it stands now.
    have hbefore (other : Answer) (hother : (question, other) ∈ d.announced) :
        Agree other answer := by
      obtain ⟨current, hcurrent, hagree⟩ := h.standing place question _ found other hother
      rwa [← Option.some.inj hcurrent] at hagree
    refine ⟨h.distinct, ?_, ?_⟩
    · intro p asked given hp other hother
      rcases mem_append.mp hother with hother | hother
      · exact h.standing p asked given hp other hother
      cases mem_singleton.mp hother
      obtain rfl := h.distinct p place question given _ hp found
      cases Option.mem_unique hp found
      exact ⟨answer, rfl, hrefl answer⟩
    · intro asked first second hfirst hsecond
      rcases mem_append.mp hfirst with hfirst | hfirst <;>
        rcases mem_append.mp hsecond with hsecond | hsecond
      · exact h.agree asked first second hfirst hsecond
      · cases mem_singleton.mp hsecond
        exact hbefore first hfirst
      · cases mem_singleton.mp hfirst
        exact hsymm _ _ (hbefore second hsecond)
      · cases mem_singleton.mp hfirst
        cases mem_singleton.mp hsecond
        exact hrefl answer

theorem consistent_steps (hrefl : ∀ answer, Agree answer answer)
    (hsymm : ∀ answer answer', Agree answer answer' → Agree answer' answer)
    (h : d.Consistent Agree) (hsteps : Relation.ReflTransGen (Step Agree) d d') :
    d'.Consistent Agree := by
  induction hsteps with
  | refl => exact h
  | tail _ hlast ih => exact consistent_step hrefl hsymm ih hlast

end Docket

end SlimeOs
