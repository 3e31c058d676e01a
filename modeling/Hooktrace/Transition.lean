import Mathlib.Data.List.Basic

/-!
Runs of a labelled step relation, kept with the history of the moves they made.
A history lists the latest move first, so that an induction on the run meets the
last move together with everything that came before it. `Always` states a property
of every move given its own past; `Run.guarded` proves one such property from
another with an invariant that may speak of the past, and `Run.simulate` carries
a run to a more abstract relation.
-/
namespace Hooktrace.Transition

structure Move (S A : Type*) where
  pre : S
  act : A
  post : S

/-- The moves of a run, latest first. -/
abbrev History (S A : Type*) := List (Move S A)

variable {S A : Type*}

inductive Run (step : S → A → S → Prop) (s : S) : History S A → S → Prop
  | nil : Run step s [] s
  | move {ms : History S A} {t u : S} {a : A} :
      Run step s ms t → step t a u → Run step s (⟨t, a, u⟩ :: ms) u

/-- Every move of the history has the property, given the moves before it. -/
def Always (P : History S A → Move S A → Prop) : History S A → Prop
  | [] => True
  | m :: ms => P ms m ∧ Always P ms

@[simp] theorem always_nil (P : History S A → Move S A → Prop) : Always P [] := trivial

@[simp] theorem always_cons (P : History S A → Move S A → Prop) (m : Move S A)
    (ms : History S A) : Always P (m :: ms) ↔ P ms m ∧ Always P ms := Iff.rfl

/-- A property of single moves holds always exactly when every move has it. -/
theorem always_iff_forall_mem {P : Move S A → Prop} {ms : History S A} :
    Always (fun _ m => P m) ms ↔ ∀ m ∈ ms, P m := by
  induction ms with
  | nil => simp
  | cons m ms ih => rw [always_cons, ih, List.forall_mem_cons]

theorem Always.of_append {P : History S A → Move S A → Prop} {newer older : History S A}
    (h : Always P (newer ++ older)) : Always P older := by
  induction newer with
  | nil => exact h
  | cons m newer ih => exact ih h.2

variable {step : S → A → S → Prop} {s : S}

namespace Run

theorem single {a : A} {u : S} (h : step s a u) : Run step s [⟨s, a, u⟩] u := .move .nil h

theorem trans {ms ms' : History S A} {t u : S} (h : Run step s ms t) (h' : Run step t ms' u) :
    Run step s (ms' ++ ms) u := by
  induction h' with
  | nil => exact h
  | move _ hstep ih => exact .move ih hstep

/-- Every part of the history was itself left by a run. -/
theorem of_append {newer older : History S A} {t : S} (h : Run step s (newer ++ older) t) :
    ∃ u, Run step s older u ∧ Run step u newer t := by
  induction newer generalizing t with
  | nil => exact ⟨t, h, .nil⟩
  | cons m newer ih =>
    cases h with
    | move h hstep =>
      obtain ⟨u, holder, hnewer⟩ := ih h
      exact ⟨u, holder, .move hnewer hstep⟩

theorem step_of_cons {m : Move S A} {ms : History S A} {t : S} (h : Run step s (m :: ms) t) :
    Run step s ms m.pre ∧ step m.pre m.act m.post ∧ t = m.post := by
  cases h with
  | move h hstep => exact ⟨h, hstep, rfl⟩

/-- A state property that every step keeps holds at the end of a run. -/
theorem invariant {I : S → Prop} {ms : History S A} {t : S} (h : Run step s ms t)
    (hinit : I s) (hstep : ∀ t a u, I t → step t a u → I u) : I t := by
  induction h with
  | nil => exact hinit
  | move _ hmove ih => exact hstep _ _ _ ih hmove

/-- The rule for runs whose moves are restricted: under the guard `C`, an invariant
`J` of history and state is kept and gives the property `P` of every move. -/
theorem guarded {C P : History S A → Move S A → Prop} {J : History S A → S → Prop}
    {ms : History S A} {t : S} (h : Run step s ms t) (hinit : J [] s)
    (hmove : ∀ past t a u, J past t → C past ⟨t, a, u⟩ → step t a u →
      P past ⟨t, a, u⟩ ∧ J (⟨t, a, u⟩ :: past) u)
    (hguard : Always C ms) : Always P ms ∧ J ms t := by
  induction h with
  | nil => exact ⟨trivial, hinit⟩
  | move _ hstep ih =>
    obtain ⟨hP, hJ⟩ := ih hguard.2
    obtain ⟨hPm, hJm⟩ := hmove _ _ _ _ hJ hguard.1 hstep
    exact ⟨⟨hPm, hP⟩, hJm⟩

/-- The rule where nothing is assumed of the moves. -/
theorem always {P : History S A → Move S A → Prop} {J : History S A → S → Prop}
    {ms : History S A} {t : S} (h : Run step s ms t) (hinit : J [] s)
    (hmove : ∀ past t a u, J past t → step t a u →
      P past ⟨t, a, u⟩ ∧ J (⟨t, a, u⟩ :: past) u) : Always P ms ∧ J ms t :=
  h.guarded (C := fun _ _ => True) hinit (fun past t a u hJ _ hstep => hmove past t a u hJ hstep)
    (always_iff_forall_mem.mpr fun _ _ => trivial)

/-- A run of the concrete relation is one of the abstract relation, where a concrete
step may be any number of abstract ones. -/
theorem simulate {S' A' : Type*} {step' : S' → A' → S' → Prop} (abs : S → S')
    (hsim : ∀ t a u, step t a u → ∃ ms' : History S' A', Run step' (abs t) ms' (abs u))
    {ms : History S A} {t : S} (h : Run step s ms t) :
    ∃ ms' : History S' A', Run step' (abs s) ms' (abs t) := by
  induction h with
  | nil => exact ⟨[], .nil⟩
  | @move ms t u a _ hstep ih =>
    obtain ⟨before, hrun⟩ := ih
    obtain ⟨after, hnext⟩ := hsim t a u hstep
    exact ⟨after ++ before, hrun.trans hnext⟩

end Run

/-- The relation of an executable step function; `none` means not enabled. -/
def Steps (f : S → A → Option S) (s : S) (a : A) (t : S) : Prop := f s a = some t

/-- Execute actions in order, collecting the history. -/
def play (f : S → A → Option S) : History S A → S → List A → Option (History S A × S)
  | ms, s, [] => some (ms, s)
  | ms, s, a :: as => match f s a with
    | none => none
    | some t => play f (⟨s, a, t⟩ :: ms) t as

theorem Run.of_play_from {f : S → A → Option S} {as : List A} {ms ms' : History S A} {t u : S}
    (h : Run (Steps f) s ms t) (hplay : play f ms t as = some (ms', u)) :
    Run (Steps f) s ms' u := by
  induction as generalizing ms t with
  | nil =>
    obtain ⟨rfl, rfl⟩ := Prod.mk.inj (Option.some.inj hplay)
    exact h
  | cons a as ih =>
    cases hstep : f t a with
    | none => simp [play, hstep] at hplay
    | some v =>
      simp only [play, hstep] at hplay
      exact ih (.move h hstep) hplay

theorem Run.of_play {f : S → A → Option S} {as : List A} {ms : History S A} {t : S}
    (hplay : play f [] s as = some (ms, t)) : Run (Steps f) s ms t :=
  of_play_from .nil hplay

end Hooktrace.Transition
