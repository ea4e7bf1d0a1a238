import Mathlib.Data.List.Basic

/-!
Calls that can fail after they have already written to their state.

A method that takes `&mut self` and returns a `Result` keeps every write it
made before an early return. A call is therefore modelled as a function to an
outcome and a state, and that a failed call changes nothing is a property to
be proved of each call, not a consequence of the model.
-/

namespace SlimeOs.FallibleCall

open List

variable {acc ε' ε α : Type} {start : acc} {count : Nat} {Inv : acc → Prop} {Exit : ε → Prop}

/-- A counted loop succeeds, with the invariant at its end, when each pass succeeds and takes it one
further. -/
theorem loop_invariant {m : Type → Type} [Monad m] [LawfulMonad m]
    {body : acc → Nat → m acc} (Inv : Nat → acc → Prop)
    (hstart : Inv 0 start) (hbody : ∀ i state, i < count → Inv i state →
      ∃ state', body state i = pure state' ∧ Inv (i + 1) state') :
    ∃ state, (List.range count).foldlM body start = pure state ∧ Inv count state := by
  induction count with
  | zero => exact ⟨start, rfl, hstart⟩
  | succ count ih =>
    obtain ⟨state, hloop, hstate⟩ := ih fun i state hi => hbody i state (by omega)
    obtain ⟨state', hpass, hstate'⟩ := hbody count state (Nat.lt_succ_self count) hstate
    refine ⟨state', ?_, hstate'⟩
    rw [range_succ, foldlM_append, hloop, pure_bind, foldlM_cons, hpass, pure_bind]
    rfl

/-- What holds of a loop that may leave early: the exit's own property, or the invariant at
its end. -/
def Leaves {ε acc : Type} (Exit : ε → Prop) (Inv : acc → Prop) : Except ε acc → Prop
  | .error exit => Exit exit
  | .ok state => Inv state

theorem Leaves.imp {Exit' : ε → Prop} {Inv' : acc → Prop}
    {result : Except ε acc} (h : Leaves Exit Inv result) (hexit : ∀ exit, Exit exit → Exit' exit)
    (hinv : ∀ state, Inv state → Inv' state) : Leaves Exit' Inv' result := by
  cases result with
  | error exit => exact hexit exit h
  | ok state => exact hinv state h

theorem leaves_bind {Mid : α → Prop}
    {first : Except ε α} {rest : α → Except ε acc} (h : Leaves Exit Mid first)
    (hrest : ∀ a, Mid a → Leaves Exit Inv (rest a)) : Leaves Exit Inv (first >>= rest) := by
  cases first with
  | error exit => exact h
  | ok a => exact hrest a h

theorem fold_leaves {body : acc → α → Except ε acc}
    (Exit : ε → Prop) (Inv : Nat → acc → Prop) (xs : List α) (hstart : Inv 0 start)
    (hbody : ∀ i x state, xs[i]? = some x → Inv i state →
      Leaves Exit (Inv (i + 1)) (body state x)) :
    Leaves Exit (Inv xs.length) (xs.foldlM body start) := by
  induction xs generalizing start Inv with
  | nil => exact hstart
  | cons x xs ih =>
    refine leaves_bind (hbody 0 x start rfl hstart) fun state hstate => ?_
    exact ih (fun i => Inv (i + 1)) hstate fun i y state hy => hbody (i + 1) y state hy

theorem range_leaves {body : acc → Nat → Except ε acc}
    (Exit : ε → Prop) (Inv : Nat → acc → Prop) (count : Nat) (hstart : Inv 0 start)
    (hbody : ∀ i state, i < count → Inv i state → Leaves Exit (Inv (i + 1)) (body state i)) :
    Leaves Exit (Inv count) ((List.range count).foldlM body start) := by
  have hloop := fold_leaves Exit Inv (List.range count) hstart fun i x state hx hstate => by
    obtain ⟨hi, rfl⟩ := List.getElem_of_getElem? hx
    rw [getElem_range]
    exact hbody i state (by simpa using hi) hstate
  rwa [length_range] at hloop

/-- Why a computation produced no value: it returned an error, it panicked, or
it never came back. -/
inductive Fault (ε : Type) where
  | returned (error : ε)
  | panicked
  | diverged
deriving DecidableEq

abbrev Outcome (ε α : Type) := Except (Fault ε) α

namespace Outcome

variable {ε α β : Type} {error : ε} {condition : Bool} {a : α} {value : Option α}
  {f : α → Outcome ε β} {x : Outcome ε α} {xs : List α}

def rejectIf (condition : Bool) (error : ε) : Outcome ε Unit :=
  if condition then .error (.returned error) else .ok ()

/-- `ok_or`: an absent value is an error of the caller's choice. -/
def okOr (value : Option α) (error : ε) : Outcome ε α :=
  match value with
  | some a => .ok a
  | none => .error (.returned error)

/-- `unwrap`, `expect` and indexing: an absent value is a panic. -/
def unwrap (value : Option α) : Outcome ε α :=
  match value with
  | some a => .ok a
  | none => .error .panicked

/-- `map_err` to one fixed error. A panic is not an error and passes through. -/
def mapErr {ε' : Type} (value : Outcome ε α) (error : ε') : Outcome ε' α :=
  match value with
  | .ok a => .ok a
  | .error (.returned _) => .error (.returned error)
  | .error .panicked => .error .panicked
  | .error .diverged => .error .diverged

@[simp] theorem rejectIf_eq_ok_iff {u : Unit} :
    rejectIf condition error = .ok u ↔ condition = false := by
  cases condition <;> simp [rejectIf]

@[simp] theorem okOr_eq_ok_iff : okOr value error = .ok a ↔ value = some a := by
  cases value <;> simp [okOr]

@[simp] theorem unwrap_eq_ok_iff : unwrap (ε := ε) value = .ok a ↔ value = some a := by
  cases value <;> simp [unwrap]

@[simp] theorem mapErr_eq_ok_iff {value : Outcome ε α} {error : ε'} :
    mapErr value error = .ok a ↔ value = .ok a := by
  rcases value with fault | b
  · cases fault <;> simp [mapErr]
  · simp [mapErr]

theorem bind_eq_ok_iff {b : β} : x >>= f = .ok b ↔ ∃ a, x = .ok a ∧ f a = .ok b := by
  cases x <;> simp [bind, Except.bind]

@[simp] theorem pure_eq_ok_iff {b : α} : (pure a : Outcome ε α) = .ok b ↔ a = b := by
  simp [pure, Except.pure]

theorem toOption_eq_some_iff : x.toOption = some a ↔ x = .ok a := by
  cases x <;> simp [Except.toOption]

/-- Every element a completed loop visited passed its own step. -/
theorem foldlM_step_of_ok (step : acc → α → Outcome ε acc) (xs : List α)
    (start result : acc) (hloop : xs.foldlM step start = .ok result) :
    ∀ x ∈ xs, ∃ before after, step before x = .ok after := by
  induction xs generalizing start with
  | nil => simp
  | cons x xs ih =>
    rw [foldlM_cons, bind_eq_ok_iff] at hloop
    obtain ⟨next, hnext, hrest⟩ := hloop
    intro y hy
    rcases mem_cons.mp hy with rfl | hy
    · exact ⟨start, next, hnext⟩
    · exact ih next hrest y hy

theorem foldlM_unit_eq_ok_iff {step : Unit → α → Outcome ε Unit} :
    xs.foldlM step () = .ok () ↔ ∀ x ∈ xs, step () x = .ok () := by
  induction xs with
  | nil => simp
  | cons x xs ih =>
    rw [foldlM_cons, bind_eq_ok_iff, forall_mem_cons, ← ih]
    exact ⟨fun ⟨_, h⟩ => h, fun h => ⟨(), h⟩⟩

/-- A loop that holds each element against those before it. -/
theorem foldlM_zipIdx_eq_ok_iff {step : Unit → α × Nat → Outcome ε Unit} {P : α → Prop}
    {R : α → α → Prop} (hstep : ∀ i x, xs[i]? = some x →
      (step () (x, i) = .ok () ↔ P x ∧ ∀ y ∈ xs.take i, R y x)) :
    xs.zipIdx.foldlM step () = .ok () ↔ (∀ x ∈ xs, P x) ∧ xs.Pairwise R := by
  rw [foldlM_unit_eq_ok_iff]
  constructor
  · intro h
    have hat (i : Nat) (x : α) (hx : xs[i]? = some x) : P x ∧ ∀ y ∈ xs.take i, R y x :=
      (hstep i x hx).mp (h (x, i) (mk_mem_zipIdx_iff_getElem?.mpr hx))
    refine ⟨fun x hx => ?_, pairwise_iff_getElem.mpr fun i j hi hj hlt => ?_⟩
    · obtain ⟨i, hi⟩ := mem_iff_getElem?.mp hx
      exact (hat i x hi).1
    · refine (hat j _ (getElem?_eq_getElem hj)).2 _ (mem_take_iff_getElem.mpr ⟨i, ?_, rfl⟩)
      omega
  · rintro ⟨hP, hR⟩ ⟨x, i⟩ hmem
    have hx := mk_mem_zipIdx_iff_getElem?.mp hmem
    refine (hstep i x hx).mpr ⟨hP x (mem_of_getElem? hx), fun y hy => ?_⟩
    obtain ⟨j, hj, rfl⟩ := mem_take_iff_getElem.mp hy
    obtain ⟨hi, rfl⟩ := List.getElem_of_getElem? hx
    exact pairwise_iff_getElem.mp hR j i _ hi (by omega)

theorem getElem?_of_mapM {ys : List β} (h : xs.mapM f = .ok ys) :
    ∀ (i : Nat) (y : β), ys[i]? = some y → ∃ x, xs[i]? = some x ∧ f x = .ok y := by
  induction xs generalizing ys with
  | nil =>
    obtain rfl := pure_eq_ok_iff.mp h
    simp
  | cons x xs ih =>
    rw [mapM_cons, bind_eq_ok_iff] at h
    obtain ⟨z, hz, h⟩ := h
    obtain ⟨zs, hzs, h⟩ := bind_eq_ok_iff.mp h
    obtain rfl := pure_eq_ok_iff.mp h
    intro i y hy
    cases i with
    | zero => exact ⟨x, rfl, hz.trans (congrArg _ (Option.some.inj hy))⟩
    | succ i => exact ih hzs i y hy

theorem eq_ok_of_mapM_range {count : Nat} {f : Nat → Outcome ε β} {ys : List β}
    (h : (List.range count).mapM f = .ok ys) {i : Nat} {y : β} (hy : ys[i]? = some y) :
    i < count ∧ f i = .ok y := by
  obtain ⟨x, hx, hok⟩ := getElem?_of_mapM h i y hy
  obtain ⟨hi, rfl⟩ := List.getElem_of_getElem? hx
  rw [getElem_range] at hok
  exact ⟨by simpa using hi, hok⟩

theorem length_of_mapM {ys : List β} (h : xs.mapM f = .ok ys) : ys.length = xs.length := by
  induction xs generalizing ys with
  | nil =>
    obtain rfl := pure_eq_ok_iff.mp h
    rfl
  | cons x xs ih =>
    rw [mapM_cons, bind_eq_ok_iff] at h
    obtain ⟨_, -, h⟩ := h
    obtain ⟨zs, hzs, h⟩ := bind_eq_ok_iff.mp h
    obtain rfl := pure_eq_ok_iff.mp h
    simp [ih hzs]

/-- The computation comes back without a panic: if it fails, it returns an error. -/
def Settles (x : Outcome ε α) : Prop := ∀ fault, x = .error fault → ∃ error, fault = .returned error

theorem settles_pure (a : α) : Settles (pure a : Outcome ε α) := nofun

theorem settles_error (error : ε) : Settles (.error (.returned error) : Outcome ε α) := by
  intro fault h
  exact ⟨error, (Except.error.inj h).symm⟩

theorem settles_okOr : Settles (okOr value error) := by
  rcases value with _ | a
  · exact settles_error error
  · exact nofun

theorem settles_rejectIf : Settles (rejectIf condition error) := by
  rcases condition with _ | _
  · exact nofun
  · exact settles_error error

theorem settles_bind (hx : Settles x)
    (hf : ∀ a, x = .ok a → Settles (f a)) : Settles (x >>= f) := by
  rcases hstep : x with fault | a
  · intro fault' h
    obtain rfl := Except.error.inj h
    exact hx fault hstep
  · exact hf a hstep

theorem settles_check {f : Unit → Outcome ε β}
    (h : Settles (f ())) : Settles (rejectIf condition error >>= f) :=
  settles_bind settles_rejectIf fun _ _ => h

theorem settles_fold {body : acc → α → Outcome ε acc}
    (hbody : ∀ x ∈ xs, ∀ state, Settles (body state x)) : Settles (xs.foldlM body start) := by
  induction xs generalizing start with
  | nil => exact settles_pure start
  | cons x xs ih =>
    refine settles_bind (hbody x (by simp) start) fun state _ => ?_
    exact ih fun y hy => hbody y (by simp [hy])

end Outcome

open Outcome

theorem getElem?_set_cases {xs : List α} {i j : Nat} {a b : α}
    (h : (xs.set i a)[j]? = some b) : j = i ∧ b = a ∨ j ≠ i ∧ xs[j]? = some b := by
  rw [getElem?_set] at h
  split at h
  next heq =>
    split at h
    · exact .inl ⟨heq.symm, (Option.some.inj h).symm⟩
    · cases h
  next hne => exact .inr ⟨Ne.symm hne, h⟩

/-- A call on a state of type `σ`. The state is the one the call leaves behind,
also when it fails. -/
def Call (σ ε α : Type) := σ → Outcome ε α × σ

namespace Call

variable {σ ε α β : Type} {x : Call σ ε α} {f : α → Call σ ε β} {s s' : σ} {a : α}
  {outcome : Outcome ε α} {value : Option α} {condition : Bool} {error : ε}
  {middle : Outcome ε α → σ → Prop} {post : Outcome ε β → σ → Prop} {wrap : ε → ε'}
  {body : acc → α → Call σ ε acc} {R : σ → σ → Prop}

instance : Monad (Call σ ε) where
  pure a := fun s => (.ok a, s)
  bind x f := fun s =>
    match x s with
    | (.ok a, s') => f a s'
    | (.error fault, s') => (.error fault, s')

theorem lawful : LawfulMonad (Call σ ε) :=
  LawfulMonad.mk' (Call σ ε) (fun x => by
      funext s
      change (match x s with | (.ok a, s') => _ | (.error fault, s') => _) = x s
      rcases x s with ⟨fault | a, s'⟩ <;> rfl)
    (fun _ _ => rfl)
    (fun x f g => by
      funext s
      change (match (match x s with | (.ok a, s') => f a s' | (.error fault, s') => _) with
        | (.ok b, s') => g b s' | (.error fault, s') => _) = _
      change _ = match x s with | (.ok a, s') => _ | (.error fault, s') => _
      rcases x s with ⟨fault | a, s'⟩ <;> rfl)

protected def lift (outcome : Outcome ε α) : Call σ ε α := fun s => (outcome, s)

protected def read : Call σ ε σ := fun s => (.ok s, s)

protected def modify (f : σ → σ) : Call σ ε Unit := fun s => (.ok (), f s)

protected def rejectIf (condition : Bool) (error : ε) : Call σ ε Unit :=
  Call.lift (Outcome.rejectIf condition error)

/-- The conversion of an error by `?`. -/
protected def wrapErr {ε' : Type} (wrap : ε → ε') (x : Call σ ε α) : Call σ ε' α := fun s =>
  match x s with
  | (.ok a, s') => (.ok a, s')
  | (.error (.returned error), s') => (.error (.returned (wrap error)), s')
  | (.error .panicked, s') => (.error .panicked, s')
  | (.error .diverged, s') => (.error .diverged, s')

/-- The match on a `Result`: a returned error becomes a value. -/
protected def attempt {ε' : Type} (x : Call σ ε α) : Call σ ε' (Except ε α) := fun s =>
  match x s with
  | (.ok a, s') => (.ok (.ok a), s')
  | (.error (.returned error), s') => (.ok (.error error), s')
  | (.error .panicked, s') => (.error .panicked, s')
  | (.error .diverged, s') => (.error .diverged, s')

theorem bind_apply (x : Call σ ε α) (f : α → Call σ ε β) (s : σ) : (x >>= f) s =
      match x s with
      | (.ok a, s') => f a s'
      | (.error fault, s') => (.error fault, s') := rfl

@[simp] theorem bind_ok_iff (x : Call σ ε α) (f : α → Call σ ε β) (s s' : σ) (b : β) :
    (x >>= f) s = (.ok b, s') ↔ ∃ a middle, x s = (.ok a, middle) ∧ f a middle = (.ok b, s') := by
  rw [bind_apply]
  rcases x s with ⟨- | a, middle⟩ <;> simp

@[simp] theorem pure_ok_iff (a b : α) (s s' : σ) :
    (pure a : Call σ ε α) s = (.ok b, s') ↔ a = b ∧ s = s' := by
  simp [pure]

@[simp] theorem lift_ok_iff {outcome : Outcome ε α} {a : α} {s s' : σ} :
    Call.lift outcome s = (.ok a, s') ↔ outcome = .ok a ∧ s = s' := by
  simp [Call.lift]

@[simp] theorem read_ok_iff (s a s' : σ) :
    (Call.read : Call σ ε σ) s = (.ok a, s') ↔ s = a ∧ s = s' := by
  simp [Call.read]

@[simp] theorem modify_ok_iff (f : σ → σ) (u : Unit) (s s' : σ) :
    (Call.modify f : Call σ ε Unit) s = (.ok u, s') ↔ f s = s' := by
  simp [Call.modify]

@[simp] theorem rejectIf_ok_iff (condition : Bool) (error : ε) (u : Unit) (s s' : σ) :
    (Call.rejectIf condition error : Call σ ε Unit) s = (.ok u, s') ↔
      condition = false ∧ s = s' := by
  simp [Call.rejectIf]

theorem wrapErr_fst_ok_iff {ε' : Type} {wrap : ε → ε'} {x : Call σ ε α} {a : α} {s : σ} :
    (Call.wrapErr wrap x s).1 = .ok a ↔ (x s).1 = .ok a := by
  unfold Call.wrapErr
  split <;> simp_all

theorem wrapErr_ok_iff {ε' : Type} {wrap : ε → ε'} {x : Call σ ε α} {a : α} {s s' : σ} :
    Call.wrapErr wrap x s = (.ok a, s') ↔ x s = (.ok a, s') := by
  unfold Call.wrapErr
  split <;> simp_all

theorem wrapErr_state {ε' : Type} (wrap : ε → ε') (x : Call σ ε α) (s : σ) :
    (Call.wrapErr wrap x s).2 = (x s).2 := by
  unfold Call.wrapErr
  split <;> simp_all

theorem wrapErr_wrapErr {ε' ε'' : Type} (wrap : ε → ε') (wrap' : ε' → ε'') (x : Call σ ε α) :
    Call.wrapErr wrap' (Call.wrapErr wrap x) =
      Call.wrapErr (fun error => wrap' (wrap error)) x := by
  funext s
  unfold Call.wrapErr
  rcases x s with ⟨⟨- | - | -⟩ | -, -⟩ <;> rfl

theorem settles_wrapErr {ε' : Type} {wrap : ε → ε'} {x : Call σ ε α} {s : σ}
    (h : Outcome.Settles (x s).1) : Outcome.Settles (Call.wrapErr wrap x s).1 := by
  unfold Call.wrapErr
  split <;> simp_all [Outcome.Settles]

/-- The call leaves the state alone, whatever its outcome. -/
def ReadOnly (x : Call σ ε α) : Prop := ∀ s, (x s).2 = s

/-- From `s` the call either completes or leaves the state alone. -/
def AllOrNothing (x : Call σ ε α) (s : σ) : Prop :=
  (∃ fault, x s = (.error fault, s)) ∨ ∃ a s', x s = (.ok a, s')

theorem readOnly_lift (outcome : Outcome ε α) : ReadOnly (Call.lift outcome : Call σ ε α) :=
  fun _ => rfl

theorem readOnly_read : ReadOnly (Call.read : Call σ ε σ) := fun _ => rfl

theorem readOnly_rejectIf (condition : Bool) (error : ε) :
    ReadOnly (Call.rejectIf condition error : Call σ ε Unit) := fun _ => rfl

theorem bind_state_of_readOnly (x : Call σ ε α) {f : α → Call σ ε β} (hf : ∀ a, ReadOnly (f a))
    (s : σ) : ((x >>= f) s).2 = (x s).2 := by
  rw [bind_apply]
  rcases x s with ⟨- | a, s'⟩
  · rfl
  · exact hf a s'

/-- The call completes from every state. -/
def Completes (x : Call σ ε α) : Prop := ∀ s, ∃ a s', x s = (.ok a, s')

theorem completes_modify {f : σ → σ} : Completes (Call.modify f : Call σ ε Unit) :=
  fun s => ⟨(), f s, rfl⟩

theorem completes_pure (a : α) : Completes (pure a : Call σ ε α) := fun s => ⟨a, s, rfl⟩

theorem completes_bind (hx : Completes x) (hf : ∀ a, Completes (f a)) : Completes (x >>= f) := by
  intro s
  obtain ⟨a, middle, ha⟩ := hx s
  obtain ⟨b, s', hb⟩ := hf a middle
  exact ⟨b, s', (bind_ok_iff x f s s' b).mpr ⟨a, middle, ha, hb⟩⟩

theorem allOrNothing_of_completes (hx : Completes x) : AllOrNothing x s := .inr (hx s)

/-- A call that begins without writing is all or nothing when its rest is, after every answer of the
first part. -/
theorem allOrNothing_bind (hx : ReadOnly x)
    (hf : ∀ a, x s = (.ok a, s) → AllOrNothing (f a) s) : AllOrNothing (x >>= f) s := by
  have hkeep := hx s
  unfold AllOrNothing
  rw [bind_apply]
  rcases hstep : x s with ⟨fault | a, middle⟩
  · obtain rfl : middle = s := by simpa [hstep] using hkeep
    exact .inl ⟨fault, rfl⟩
  · obtain rfl : middle = s := by simpa [hstep] using hkeep
    exact hf a hstep

theorem allOrNothing_read {f : σ → Call σ ε β} (hf : AllOrNothing (f s) s) :
    AllOrNothing (Call.read >>= f) s := by
  refine allOrNothing_bind readOnly_read fun a ha => ?_
  obtain rfl : s = a := by simpa using ha
  exact hf

theorem allOrNothing_lift (hf : ∀ a, outcome = .ok a → AllOrNothing (f a) s) :
    AllOrNothing (Call.lift outcome >>= f) s := by
  refine allOrNothing_bind (readOnly_lift outcome) fun a ha => ?_
  exact hf a (by simpa using ha)

theorem allOrNothing_rejectIf {f : Unit → Call σ ε β}
    (hf : condition = false → AllOrNothing (f ()) s) :
    AllOrNothing (Call.rejectIf condition error >>= f) s := by
  refine allOrNothing_bind (readOnly_rejectIf condition error) fun a ha => ?_
  exact hf (by simpa using ha)

theorem allOrNothing_bind_pure (g : α → β) (hx : AllOrNothing x s) :
    AllOrNothing (x >>= fun a => pure (g a)) s := by
  rcases hx with ⟨fault, hfault⟩ | ⟨a, s', hok⟩
  · exact .inl ⟨fault, by rw [bind_apply, hfault]⟩
  · exact .inr ⟨g a, s', by rw [bind_apply, hok]; rfl⟩

theorem state_eq_of_error {fault : Fault ε} (hx : AllOrNothing x s)
    (hfault : (x s).1 = .error fault) : (x s).2 = s := by
  rcases hx with ⟨fault', hx⟩ | ⟨a, s', hx⟩
  · rw [hx]
  · simp [hx] at hfault

/-- From `s` the call returns an error and leaves the state alone. -/
def Refuses (x : Call σ ε α) (s : σ) : Prop := ∃ error, x s = (.error (.returned error), s)

theorem refuses_bind (hx : Refuses x s) : Refuses (x >>= f) s := by
  obtain ⟨error, hx⟩ := hx
  exact ⟨error, by rw [bind_apply, hx]⟩

theorem refuses_read {f : σ → Call σ ε β} (hf : Refuses (f s) s) : Refuses (Call.read >>= f) s := hf

theorem refuses_lift (houtcome : outcome = .error (.returned error)) :
    Refuses (Call.lift outcome : Call σ ε α) s := ⟨error, by rw [Call.lift, houtcome]⟩

theorem refuses_rejectIf {f : Unit → Call σ ε β}
    (hf : Refuses (f ()) s) : Refuses (Call.rejectIf condition error >>= f) s := by
  rcases condition with _ | _
  · exact hf
  · exact ⟨error, rfl⟩

theorem refuses_okOr (hf : ∀ a, Refuses (f a) s) :
    Refuses (Call.lift (okOr value error) >>= f) s := by
  rcases value with _ | a
  · exact ⟨error, rfl⟩
  · exact hf a

/-- What a call guarantees from `s`, of its outcome and of the state it leaves
behind, also when it fails. -/
def Ensures (x : Call σ ε α) (s : σ) (post : Outcome ε α → σ → Prop) : Prop :=
  post (x s).1 (x s).2

/-- After each answer of the first part the rest must guarantee the same, and so must
each failure of it. -/
theorem ensures_bind (hx : Ensures x s middle)
    (hok : ∀ a s', middle (.ok a) s' → Ensures (f a) s' post)
    (herror : ∀ fault s', middle (.error fault) s' → post (.error fault) s') :
    Ensures (x >>= f) s post := by
  unfold Ensures at hx ⊢
  rw [bind_apply]
  rcases hstep : x s with ⟨fault | a, s'⟩
  · rw [hstep] at hx
    exact herror fault s' hx
  · rw [hstep] at hx
    exact hok a s' hx

/-- The first part always answers. -/
theorem ensures_answer {P : α → σ → Prop}
    (hx : Ensures x s fun outcome s' => ∃ a, outcome = .ok a ∧ P a s')
    (hok : ∀ a s', P a s' → Ensures (f a) s' post) : Ensures (x >>= f) s post := by
  refine ensures_bind hx ?_ ?_
  · rintro a s' ⟨_, ⟨⟩, h⟩
    exact hok a s' h
  · rintro fault s' ⟨_, hfault, -⟩
    cases hfault

theorem ensures_pure {post : Outcome ε α → σ → Prop} (h : post (.ok a) s) :
    Ensures (pure a : Call σ ε α) s post := h

theorem ensures_weaken {post post' : Outcome ε α → σ → Prop}
    (hx : Ensures x s post) (h : ∀ outcome s', post outcome s' → post' outcome s') :
    Ensures x s post' := h _ _ hx

theorem ensures_wrapErr {post : Outcome ε' α → σ → Prop} (hx : Ensures x s middle)
    (hok : ∀ a s', middle (.ok a) s' → post (.ok a) s')
    (herror : ∀ fault fault' s', middle (.error fault) s' → post (.error fault') s') :
    Ensures (Call.wrapErr wrap x) s post := by
  unfold Ensures Call.wrapErr at *
  rcases hstep : x s with ⟨fault | a, s'⟩
  · rw [hstep] at hx
    cases fault <;> exact herror _ _ s' hx
  · rw [hstep] at hx
    exact hok a s' hx

theorem ensures_pure_bind (h : Ensures (f a) s post) : Ensures (pure a >>= f) s post := h

theorem ensures_bind_ok (hx : x s = (.ok a, s')) (h : Ensures (f a) s' post) :
    Ensures (x >>= f) s post := by
  unfold Ensures at h ⊢
  rw [bind_apply, hx]
  exact h

theorem ensures_read {f : σ → Call σ ε β} (h : Ensures (f s) s post) :
    Ensures (Call.read >>= f) s post := h

theorem ensures_modify {g : σ → σ} {f : Unit → Call σ ε β} (h : Ensures (f ()) (g s) post) :
    Ensures (Call.modify g >>= f) s post := h

theorem ensures_lift (hok : ∀ a, outcome = .ok a → Ensures (f a) s post)
    (herror : ∀ fault, post (.error fault) s) : Ensures (Call.lift outcome >>= f) s post := by
  rcases houtcome : outcome with fault | a
  · exact herror fault
  · exact hok a houtcome

/-- A missing value and a failed check return their own error; a value that is there is
unwrapped. -/
theorem ensures_okOr (hok : ∀ a, value = some a → Ensures (f a) s post)
    (herror : value = none → post (.error (.returned error)) s) :
    Ensures (Call.lift (okOr value error) >>= f) s post := by
  rcases hvalue : value with _ | a
  · exact herror hvalue
  · exact hok a hvalue

theorem ensures_check {f : Unit → Call σ ε β} (hok : condition = false → Ensures (f ()) s post)
    (herror : condition = true → post (.error (.returned error)) s) :
    Ensures (Call.rejectIf condition error >>= f) s post := by
  rcases hcondition : condition with _ | _
  · exact hok hcondition
  · exact herror hcondition

theorem ensures_rejectIf {f : Unit → Call σ ε β} (hok : condition = false → Ensures (f ()) s post)
    (herror : ∀ fault, post (.error fault) s) :
    Ensures (Call.rejectIf condition error >>= f) s post :=
  ensures_check hok fun _ => herror _

theorem ensures_present (hvalue : value = some a) (h : Ensures (f a) s post) :
    Ensures (Call.lift (okOr value error) >>= f) s post := by
  rw [hvalue]
  exact h

theorem ensures_unwrap (hvalue : value = some a) (h : Ensures (f a) s post) :
    Ensures (Call.lift (unwrap value) >>= f) s post := by
  rw [hvalue]
  exact h

theorem ensures_attempt {f : Except ε α → Call σ ε' β}
    {post : Outcome ε' β → σ → Prop} (hx : Ensures x s middle)
    (hok : ∀ a s', middle (.ok a) s' → Ensures (f (.ok a)) s' post)
    (hreturned : ∀ error s', middle (.error (.returned error)) s' →
      Ensures (f (.error error)) s' post)
    (hpanicked : ∀ s', middle (.error .panicked) s' → post (.error .panicked) s')
    (hdiverged : ∀ s', middle (.error .diverged) s' → post (.error .diverged) s') :
    Ensures (Call.attempt x >>= f) s post := by
  unfold Ensures at hx ⊢
  rw [bind_apply]
  unfold Call.attempt
  rcases hstep : x s with ⟨fault | a, s'⟩
  · rw [hstep] at hx
    cases fault with
    | returned error => exact hreturned error s' hx
    | panicked => exact hpanicked s' hx
    | diverged => exact hdiverged s' hx
  · rw [hstep] at hx
    exact hok a s' hx

/-- A call completes with one property of its answer or fails with another. -/
def Leads (Fails : Fault ε → σ → Prop) (Done : α → σ → Prop) : Outcome ε α → σ → Prop
  | .ok a, s => Done a s
  | .error fault, s => Fails fault s

/-- Each pass of a loop of calls takes the invariant one further, or fails in the one way. -/
theorem ensures_fold
    (Fails : Fault ε → σ → Prop) (Inv : Nat → acc → σ → Prop) (xs : List α) (hstart : Inv 0 start s)
    (hbody : ∀ i x state s', xs[i]? = some x → Inv i state s' →
      Ensures (body state x) s' (Leads Fails (Inv (i + 1)))) :
    Ensures (xs.foldlM body start) s (Leads Fails (Inv xs.length)) := by
  induction xs generalizing start s Inv with
  | nil => exact hstart
  | cons x xs ih =>
    apply ensures_bind (hbody 0 x start s rfl hstart)
    · intro state s' hstate
      exact ih (fun i => Inv (i + 1)) hstate fun i y state s'' hy => hbody (i + 1) y state s'' hy
    · intro fault s' hfault
      exact hfault

theorem ensures_loop {body : acc → Nat → Call σ ε acc}
    (Inv : Nat → acc → σ → Prop) (hstart : Inv 0 start s)
    (hbody : ∀ i state s', i < count → Inv i state s' →
      Ensures (body state i) s' fun outcome s'' => ∃ state', outcome = .ok state' ∧
        Inv (i + 1) state' s'') :
    Ensures ((List.range count).foldlM body start) s fun outcome s' =>
      ∃ state, outcome = .ok state ∧ Inv count state s' := by
  induction count with
  | zero => exact ⟨start, rfl, hstart⟩
  | succ count ih =>
    have : LawfulMonad (Call σ ε) := lawful
    rw [range_succ, foldlM_append]
    refine ensures_answer (ih fun i state s' hi => hbody i state s' (by omega)) ?_
    intro state s' hinv
    refine ensures_answer (hbody count state s' (Nat.lt_succ_self count) hinv) ?_
    exact fun state' s'' hinv' => ⟨state', rfl, hinv'⟩

/-- Whatever its outcome, the call leaves a state that stands in `R` to the one before. -/
def Moves (R : σ → σ → Prop) (x : Call σ ε α) : Prop := ∀ s, R s (x s).2

theorem ensures_moves (hx : Moves R x) (hok : ∀ a s', R s s' → Ensures (f a) s' post)
    (herror : ∀ fault s', R s s' → post (.error fault) s') : Ensures (x >>= f) s post := by
  have hmove : Ensures x s fun _ s' => R s s' := hx s
  exact ensures_bind hmove hok herror

theorem moves_wrapErr (hx : Moves R x) : Moves R (Call.wrapErr wrap x) :=
  fun s => (wrapErr_state wrap x s).symm ▸ hx s

theorem moves_attempt (hx : Moves R x) : Moves R (Call.attempt x : Call σ ε' (Except ε α)) := by
  intro s
  have hmove := hx s
  unfold Call.attempt
  rcases hstep : x s with ⟨fault | a, s'⟩
  · rw [hstep] at hmove
    cases fault <;> exact hmove
  · rwa [hstep] at hmove

section Moves

variable [IsPreorder σ R]

theorem moves_pure (a : α) : Moves R (pure a : Call σ ε α) := fun s => refl s

theorem moves_lift : Moves R (Call.lift outcome : Call σ ε α) := fun s => refl s

theorem moves_read : Moves R (Call.read : Call σ ε σ) := fun s => refl s

theorem moves_bind (hx : Moves R x) (hf : ∀ a, Moves R (f a)) : Moves R (x >>= f) := by
  intro s
  have hfirst := hx s
  rw [bind_apply]
  rcases hstep : x s with ⟨fault | a, s'⟩
  · rwa [hstep] at hfirst
  · rw [hstep] at hfirst
    exact IsTrans.trans s s' _ hfirst (hf a s')

theorem moves_fold (xs : List α) (start : acc)
    (hbody : ∀ state x, Moves R (body state x)) : Moves R (xs.foldlM body start) := by
  induction xs generalizing start with
  | nil => exact moves_pure start
  | cons x xs ih =>
    exact moves_bind (hbody start x) ih

end Moves

/-- What holds of the answer and of the state when the call completes. -/
def Returns (x : Call σ ε α) (s : σ) (post : α → σ → Prop) : Prop :=
  ∀ a s', x s = (.ok a, s') → post a s'

variable {post : α → σ → Prop}

theorem returns_iff : Returns x s post ↔ Ensures x s (Leads (fun _ _ => True) post) := by
  unfold Returns Ensures
  rcases x s with ⟨- | a, -⟩ <;> simp [Leads]

theorem returns_bind {middle : α → σ → Prop} {post : β → σ → Prop} (hx : Returns x s middle)
    (hf : ∀ a s', middle a s' → Returns (f a) s' post) : Returns (x >>= f) s post :=
  returns_iff.mpr (ensures_bind (returns_iff.mp hx) (fun a s' ha => returns_iff.mp (hf a s' ha))
    fun _ _ _ => trivial)

theorem returns_pure (h : post a s) : Returns (pure a : Call σ ε α) s post := by
  intro b s' hb
  obtain ⟨rfl, rfl⟩ := (pure_ok_iff a b s s').mp hb
  exact h

theorem returns_of_eq (hx : x s = (.ok a, s')) (h : post a s') : Returns x s post := by
  intro b s'' hb
  obtain ⟨rfl, rfl⟩ : a = b ∧ s' = s'' := by simpa [hx] using hb
  exact h

theorem returns_then {post : β → σ → Prop} (hx : x s = (.ok a, s')) (h : Returns (f a) s' post) :
    Returns (x >>= f) s post := by
  intro b s'' hb
  rw [bind_apply, hx] at hb
  exact h b s'' hb

theorem returns_weaken {post' : α → σ → Prop}
    (hx : Returns x s post) (h : ∀ a s', post a s' → post' a s') : Returns x s post' :=
  fun a s' ha => h a s' (hx a s' ha)

theorem returns_fold (Inv : Nat → σ → Prop) (xs : List α) (hstart : Inv 0 s)
    (hbody : ∀ i x state s', xs[i]? = some x → Inv i s' →
      Returns (body state x) s' fun _ s'' => Inv (i + 1) s'') :
    Returns (xs.foldlM body start) s fun _ s' => Inv xs.length s' :=
  returns_iff.mpr (ensures_fold _ (fun i _ => Inv i) xs hstart fun i x state s' hx hinv =>
    returns_iff.mp (hbody i x state s' hx hinv))

/-- The call keeps the property when it completes. -/
def Keeps (Inv : σ → Prop) (x : Call σ ε α) : Prop := ∀ s, Inv s → Returns x s fun _ => Inv

variable {Inv : σ → Prop}

theorem keeps_lift : Keeps Inv (Call.lift outcome : Call σ ε α) := by
  intro s hs a s' h
  obtain rfl : s = s' := congrArg Prod.snd h
  exact hs

theorem keeps_bind (hx : Keeps Inv x) (hf : ∀ a, Keeps Inv (f a)) : Keeps Inv (x >>= f) :=
  fun s hs => returns_bind (hx s hs) fun a s' => hf a s'

theorem keeps_fold (xs : List α) (start : acc) (hbody : ∀ state a, Keeps Inv (body state a)) :
    Keeps Inv (xs.foldlM body start) :=
  fun _ hs => returns_fold (fun _ => Inv) xs hs fun _ a state s' _ => hbody state a s'

theorem keeps_wrapErr (hx : Keeps Inv x) : Keeps Inv (Call.wrapErr wrap x) :=
  fun s hs a s' h => hx s hs a s' (wrapErr_ok_iff.mp h)

end Call

/-- The state after a sequence of operations. Failed ones are part of it. -/
def run {σ op : Type} (step : σ → op → σ) (s : σ) (ops : List op) : σ := ops.foldl step s

section Run

variable {σ op : Type} (step : σ → op → σ)

@[simp] theorem run_nil (s : σ) : run step s [] = s := rfl

@[simp] theorem run_cons (s : σ) (o : op) (ops : List op) :
    run step s (o :: ops) = run step (step s o) ops := rfl

variable (Inv : σ → Prop)

/-- What every permitted operation preserves holds after every sequence of
permitted operations. -/
theorem run_invariant_of (Allowed : op → Prop)
    (hstep : ∀ s o, Inv s → Allowed o → Inv (step s o)) (s : σ) (ops : List op)
    (hs : Inv s) (hops : ∀ o ∈ ops, Allowed o) : Inv (run step s ops) := by
  induction ops generalizing s with
  | nil => exact hs
  | cons o ops ih =>
    exact ih (step s o) (hstep s o hs (hops o (by simp))) (fun o' ho' => hops o' (by simp [ho']))

theorem run_invariant (hstep : ∀ s o, Inv s → Inv (step s o))
    (s : σ) (ops : List op) (hs : Inv s) : Inv (run step s ops) :=
  run_invariant_of step Inv (fun _ => True) (fun s o h _ => hstep s o h) s ops hs
    (fun _ _ => trivial)

/-- Every operation of the sequence is permitted in the state it is performed in. -/
def Permitted (Allowed : σ → op → Prop) : σ → List op → Prop
  | _, [] => True
  | s, o :: ops => Allowed s o ∧ Permitted Allowed (step s o) ops

theorem permitted_of_forall {Allowed : σ → op → Prop} (h : ∀ s o, Allowed s o) (s : σ)
    (ops : List op) : Permitted step Allowed s ops := by
  induction ops generalizing s with
  | nil => trivial
  | cons o ops ih => exact ⟨h s o, ih (step s o)⟩

theorem permitted_and {First Second Both : σ → op → Prop}
    (hboth : ∀ s o, First s o → Second s o → Both s o) {s : σ} {ops : List op}
    (hfirst : Permitted step First s ops) (hsecond : Permitted step Second s ops) :
    Permitted step Both s ops := by
  induction ops generalizing s with
  | nil => trivial
  | cons o ops ih => exact ⟨hboth s o hfirst.1 hsecond.1, ih hfirst.2 hsecond.2⟩

instance permittedDecidable (Allowed : σ → op → Prop) [∀ s o, Decidable (Allowed s o)] :
    (s : σ) → (ops : List op) → Decidable (Permitted step Allowed s ops)
  | _, [] => .isTrue trivial
  | s, o :: ops =>
    @instDecidableAnd _ _ _ (permittedDecidable Allowed (step s o) ops)

theorem run_invariant_permitted (Allowed : σ → op → Prop)
    (hstep : ∀ s o, Inv s → Allowed s o → Inv (step s o)) (s : σ) (ops : List op)
    (hs : Inv s) (hops : Permitted step Allowed s ops) : Inv (run step s ops) := by
  induction ops generalizing s with
  | nil => exact hs
  | cons o ops ih => exact ih (step s o) (hstep s o hs hops.1) hops.2

end Run

end SlimeOs.FallibleCall
