import Mathlib.Data.List.Forall2
import Mathlib.Tactic.Common

/-!
Computations that may fail, and runs of them over a list. A run that succeeds went
through every step, so what each step keeps the run keeps (`foldlM_keeps`,
`foldlM_rest`); a run whose every step succeeds succeeds (`foldlM_total`).

A computation on a state that fails leaves what it has written so far; inside a
transaction it leaves nothing (`transaction_error`). What relates the state before to
the state that is left is found along the computation (`Relates`), and so is that a
failure leaves nothing (`Atomic`).
-/
namespace Fallible

section
universe u v
variable {ε : Type u} {α β σ : Type v}

theorem bind_ok {x : Except ε α} {f : α → Except ε β} {b : β} :
    (x >>= f) = .ok b ↔ ∃ a, x = .ok a ∧ f a = .ok b := by
  cases x with
  | ok a => exact ⟨fun ran => ⟨a,rfl,ran⟩,by rintro ⟨_,⟨⟩,ran⟩; exact ran⟩
  | error e => exact ⟨nofun,by rintro ⟨_,⟨⟩,_⟩⟩

theorem ok_bind {f : α → Except ε β} {a : α} : (Except.ok a >>= f) = f a := rfl

theorem map_ok {x : Except ε α} {f : α → β} {b : β} : x.map f = .ok b ↔ ∃ a, x = .ok a ∧ f a = b := by
  cases x with
  | ok a => exact ⟨fun ran => ⟨a,rfl,Except.ok.inj ran⟩,by rintro ⟨_,⟨⟩,rfl⟩; rfl⟩
  | error e => exact ⟨nofun,by rintro ⟨_,⟨⟩,_⟩⟩

theorem mapError_ok {ε' : Type*} {x : Except ε α} {f : ε → ε'} {a : α} : x.mapError f = .ok a ↔ x = .ok a := by
  cases x with
  | ok b => exact ⟨fun same => congrArg Except.ok (Except.ok.inj same),fun same => congrArg Except.ok (Except.ok.inj same)⟩
  | error e => exact ⟨nofun,nofun⟩

theorem if_ok {p : Prop} [Decidable p] {x : Except ε α} {e : ε} {a : α} :
    (if p then x else .error e) = .ok a ↔ p ∧ x = .ok a := by
  split <;> simp_all

/-- What a computation gives, if it succeeds, can be evaluated. -/
instance okDecidable (x : Except ε α) (p : α → Prop) [∀ a, Decidable (p a)] : Decidable (∃ a, x = .ok a ∧ p a) :=
  match x with
  | .ok a => decidable_of_iff (p a) (by simp)
  | .error _ => .isFalse (by simp)

theorem foldlM_nil_ok {f : σ → α → Except ε σ} {s s' : σ} : [].foldlM f s = .ok s' ↔ s = s' := by
  simp [pure,Except.pure]

theorem foldlM_cons_ok {f : σ → α → Except ε σ} {a : α} {l : List α} {s s' : σ} :
    (a :: l).foldlM f s = .ok s' ↔ ∃ t, f s a = .ok t ∧ l.foldlM f t = .ok s' := by
  rw [List.foldlM_cons,bind_ok]

theorem foldlM_append_ok {f : σ → α → Except ε σ} {l l' : List α} {s s' : σ} :
    (l ++ l').foldlM f s = .ok s' ↔ ∃ t, l.foldlM f s = .ok t ∧ l'.foldlM f t = .ok s' := by
  rw [List.foldlM_append,bind_ok]

theorem foldlM_concat_ok {f : σ → α → Except ε σ} {a : α} {l : List α} {s s' : σ} :
    (l ++ [a]).foldlM f s = .ok s' ↔ ∃ t, l.foldlM f s = .ok t ∧ f t a = .ok s' := by
  simp only [foldlM_append_ok,foldlM_cons_ok,foldlM_nil_ok,exists_eq_right]

theorem foldlM_congr {f g : σ → α → Except ε σ} {l : List α} (same : ∀ a ∈ l, ∀ s, f s a = g s a) (s : σ) :
    l.foldlM f s = l.foldlM g s := by
  induction l generalizing s with
  | nil => rfl
  | cons a l ih =>
    rw [List.foldlM_cons,List.foldlM_cons,same a (.head _)]
    exact congrArg _ (funext (fun t => ih (fun b inside => same b (.tail _ inside)) t))

/-- Two runs that agree on every state they reach. -/
theorem foldlM_congr_rest {f g : σ → α → Except ε σ} (P : List α → σ → Prop) {l : List α} {s : σ}
    (step : ∀ a rest t, P (a :: rest) t → f t a = g t a ∧ ∀ t', g t a = .ok t' → P rest t') (start : P l s) :
    l.foldlM f s = l.foldlM g s := by
  induction l generalizing s with
  | nil => rfl
  | cons a l ih =>
    obtain ⟨same,keeps⟩ := step a l s start
    rw [List.foldlM_cons,List.foldlM_cons,same]
    cases first : g s a with
    | error e => rfl
    | ok t => exact ih (keeps t first)

/-- What every step keeps, a run keeps. -/
theorem foldlM_keeps {f : σ → α → Except ε σ} (P : σ → Prop) {l : List α} {s s' : σ}
    (step : ∀ a ∈ l, ∀ t t', P t → f t a = .ok t' → P t') (start : P s) (run : l.foldlM f s = .ok s') :
    P s' := by
  induction l generalizing s with
  | nil => exact foldlM_nil_ok.mp run ▸ start
  | cons a l ih =>
    obtain ⟨t,first,rest⟩ := foldlM_cons_ok.mp run
    exact ih (fun b inside => step b (.tail _ inside)) (step a (.head _) s t start first) rest

/-- An invariant that names what is left of the list. -/
theorem foldlM_rest {f : σ → α → Except ε σ} (P : List α → σ → Prop) {l : List α} {s s' : σ}
    (step : ∀ a rest t t', P (a :: rest) t → f t a = .ok t' → P rest t') (start : P l s)
    (run : l.foldlM f s = .ok s') : P [] s' := by
  induction l generalizing s with
  | nil => exact foldlM_nil_ok.mp run ▸ start
  | cons a l ih =>
    obtain ⟨t,first,rest⟩ := foldlM_cons_ok.mp run
    exact ih (step a l s t start first) rest

/-- A run of steps that all succeed succeeds. -/
theorem foldlM_total {f : σ → α → Except ε σ} (P : List α → σ → Prop) {l : List α} {s : σ}
    (step : ∀ a rest t, P (a :: rest) t → ∃ t', f t a = .ok t' ∧ P rest t') (start : P l s) :
    ∃ s', l.foldlM f s = .ok s' ∧ P [] s' := by
  induction l generalizing s with
  | nil => exact ⟨s,foldlM_nil_ok.mpr rfl,start⟩
  | cons a l ih =>
    obtain ⟨t,first,holds⟩ := step a l s start
    obtain ⟨s',rest,final⟩ := ih holds
    exact ⟨s',foldlM_cons_ok.mpr ⟨t,first,rest⟩,final⟩

/-- A run with an invariant that names what has been done: it succeeds iff each step could
    be made after the ones before it, and then the invariant names the whole list. -/
theorem foldlM_done {f : σ → α → Except ε σ} (P : List α → σ → Prop) (C : List α → α → Prop) {l : List α} {s : σ}
    (step : ∀ done a rest t, done ++ a :: rest = l → P done t →
      (∀ t', f t a = .ok t' → C done a ∧ P (done ++ [a]) t') ∧ (C done a → ∃ t', f t a = .ok t')) (start : P [] s) :
    ((∃ s', l.foldlM f s = .ok s') ↔ ∀ done a rest, done ++ a :: rest = l → C done a) ∧
      ∀ s', l.foldlM f s = .ok s' → P l s' := by
  have run (rest done : List α) (t : σ) (all : done ++ rest = l) (holds : P done t) :
      ((∃ s', rest.foldlM f t = .ok s') ↔ ∀ first a last, first ++ a :: last = rest → C (done ++ first) a) ∧
        ∀ s', rest.foldlM f t = .ok s' → P l s' := by
    induction rest generalizing done t with
    | nil =>
      rw [List.append_nil] at all
      refine ⟨⟨fun _ first a last split => by simp at split,fun _ => ⟨t,foldlM_nil_ok.mpr rfl⟩⟩,fun s' ran => ?_⟩
      rw [← foldlM_nil_ok.mp ran,← all]
      exact holds
    | cons a rest ih =>
      obtain ⟨keeps,makes⟩ := step done a rest t all holds
      have onward {t' : σ} (made : f t a = .ok t') := ih (done ++ [a]) t' (by simpa using all) (keeps t' made).2
      refine ⟨⟨?_,fun every => ?_⟩,fun s' ran => ?_⟩
      · rintro ⟨s',ran⟩ first b last parts
        obtain ⟨t',made,later⟩ := foldlM_cons_ok.mp ran
        cases first with
        | nil =>
          obtain ⟨rfl,rfl⟩ := List.cons.inj parts
          simpa using (keeps t' made).1
        | cons c first =>
          obtain ⟨rfl,rfl⟩ := List.cons.inj parts
          simpa using (onward made).1.mp ⟨s',later⟩ first b last rfl
      · obtain ⟨t',made⟩ := makes (by simpa using every [] a rest rfl)
        obtain ⟨s',later⟩ := (onward made).1.mpr (fun first b last parts => by
          simpa using every (a :: first) b last (by simp [parts]))
        exact ⟨s',foldlM_cons_ok.mpr ⟨t',made,later⟩⟩
      · obtain ⟨t',made,later⟩ := foldlM_cons_ok.mp ran
        exact (onward made).2 s' later
  simpa using run l [] s rfl start

theorem mapM_nil_ok {f : α → Except ε β} {l : List β} : [].mapM f = .ok l ↔ l = [] := by
  rw [List.mapM_nil,eq_comm (a := l)]
  exact ⟨Except.ok.inj,congrArg Except.ok⟩

theorem mapM_cons_ok {f : α → Except ε β} {a : α} {rest : List α} {l : List β} :
    (a :: rest).mapM f = .ok l ↔ ∃ b bs, f a = .ok b ∧ rest.mapM f = .ok bs ∧ l = b :: bs := by
  rw [List.mapM_cons,bind_ok]
  constructor
  · rintro ⟨b,first,later⟩
    obtain ⟨bs,rest,same⟩ := bind_ok.mp later
    exact ⟨b,bs,first,rest,(Except.ok.inj same).symm⟩
  · rintro ⟨b,bs,first,rest,rfl⟩
    exact ⟨b,first,bind_ok.mpr ⟨bs,rest,rfl⟩⟩

theorem mapM_total {f : α → Except ε β} {l : List α} (each : ∀ a ∈ l, ∃ b, f a = .ok b) : ∃ l', l.mapM f = .ok l' := by
  induction l with
  | nil => exact ⟨[],mapM_nil_ok.mpr rfl⟩
  | cons a l ih =>
    obtain ⟨b,first⟩ := each a (.head _)
    obtain ⟨bs,rest⟩ := ih (fun a' inside => each a' (.tail _ inside))
    exact ⟨b :: bs,mapM_cons_ok.mpr ⟨b,bs,first,rest,rfl⟩⟩

/-- A map that succeeds gives the images, and nothing else. -/
theorem mapM_mem {f : α → Except ε β} {l : List α} {l' : List β} (ok : l.mapM f = .ok l') :
    (∀ b ∈ l', ∃ a ∈ l, f a = .ok b) ∧ ∀ a ∈ l, ∃ b ∈ l', f a = .ok b := by
  induction l generalizing l' with
  | nil =>
    obtain rfl := mapM_nil_ok.mp ok
    simp
  | cons a l ih =>
    obtain ⟨b,bs,first,rest,rfl⟩ := mapM_cons_ok.mp ok
    obtain ⟨back,onto⟩ := ih rest
    constructor
    · intro b' inside
      rcases List.mem_cons.mp inside with rfl | later
      · exact ⟨a,.head _,first⟩
      · obtain ⟨a',there,same⟩ := back b' later
        exact ⟨a',.tail _ there,same⟩
    · intro a' inside
      rcases List.mem_cons.mp inside with rfl | later
      · exact ⟨b,.head _,first⟩
      · obtain ⟨b',there,same⟩ := onto a' later
        exact ⟨b',.tail _ there,same⟩

theorem mapM_forall₂ {f : α → Except ε β} {P : α → β → Prop} {l : List α} {l' : List β}
    (each : List.Forall₂ (fun a b => f a = .ok b ∧ P a b) l l') : l.mapM f = .ok l' := by
  induction each with
  | nil => exact mapM_nil_ok.mpr rfl
  | cons here _ ih => exact mapM_cons_ok.mpr ⟨_,_,here.1,ih,rfl⟩

/-- A run over a list gives what each step gives. -/
theorem mapM_each {f : α → Except ε β} {P : α → β → Prop} {l : List α} :
    (∃ l', List.Forall₂ (fun a b => f a = .ok b ∧ P a b) l l') ↔ ∀ a ∈ l, ∃ b, f a = .ok b ∧ P a b := by
  induction l with
  | nil => exact iff_of_true ⟨[],List.Forall₂.nil⟩ (by simp)
  | cons a l ih =>
    rw [List.forall_mem_cons,← ih]
    constructor
    · rintro ⟨l',each⟩
      cases each with
      | cons here rest => exact ⟨⟨_,here⟩,_,rest⟩
    · rintro ⟨⟨b,here⟩,bs,rest⟩
      exact ⟨b :: bs,List.Forall₂.cons here rest⟩

theorem mapM_length {f : α → Except ε β} {l : List α} {l' : List β} (ok : l.mapM f = .ok l') : l'.length = l.length := by
  induction l generalizing l' with
  | nil => rw [mapM_nil_ok.mp ok]; rfl
  | cons a l ih =>
    obtain ⟨b,bs,-,rest,rfl⟩ := mapM_cons_ok.mp ok
    rw [List.length_cons,List.length_cons,ih rest]

/-- Images that map to themselves. -/
theorem mapM_back {f : α → Except ε β} {g : β → α} {l : List β} (back : ∀ b ∈ l, f (g b) = .ok b) : (l.map g).mapM f = .ok l := by
  induction l with
  | nil => exact mapM_nil_ok.mpr rfl
  | cons b l ih =>
    exact mapM_cons_ok.mpr ⟨b,l,back b (.head _),ih (fun b' inside => back b' (.tail _ inside)),rfl⟩

/-- A view of the images that is a view of what they come from is one in their order. -/
theorem mapM_map {f : α → Except ε β} {g : β → γ} {h : α → γ} {l : List α} {l' : List β} (ok : l.mapM f = .ok l')
    (same : ∀ a ∈ l, ∀ b, f a = .ok b → g b = h a) : l'.map g = l.map h := by
  induction l generalizing l' with
  | nil => rw [mapM_nil_ok.mp ok,List.map_nil,List.map_nil]
  | cons a l ih =>
    obtain ⟨b,bs,first,rest,rfl⟩ := mapM_cons_ok.mp ok
    rw [List.map_cons,List.map_cons,same a (.head _) b first,ih rest (fun a' inside => same a' (.tail _ inside))]

end

section
universe u
variable {ε σ α β : Type u} {s t : σ} {a : α} {b : β} {e : ε}

/-- Work inside a transaction: an error drops all that it has written. -/
def transaction (work : EStateM ε σ α) : EStateM ε σ α := fun s =>
  match work s with
  | .ok a t => .ok a t
  | .error e _ => .error e s

theorem work_bind {x : EStateM ε σ α} {f : α → EStateM ε σ β} :
    (x >>= f) s = match x s with
      | .ok a t => f a t
      | .error e t => .error e t := rfl

theorem work_bind_ok {x : EStateM ε σ α} {f : α → EStateM ε σ β} :
    (x >>= f) s = .ok b t ↔ ∃ a r, x s = .ok a r ∧ f a r = .ok b t := by
  rw [work_bind]
  cases x s <;> simp

theorem work_catch {x : EStateM ε σ α} {handle : ε → EStateM ε σ α} :
    (tryCatch x handle : EStateM ε σ α) s = match x s with
      | .ok a t => .ok a t
      | .error e t => handle e t := by
  change EStateM.tryCatch x handle s = _
  unfold EStateM.tryCatch
  cases x s <;> rfl

theorem get_bind {f : σ → EStateM ε σ β} : ((MonadState.get : EStateM ε σ σ) >>= f) s = f s s := rfl

theorem modify_bind {g : σ → σ} {f : PUnit → EStateM ε σ β} : ((modify g : EStateM ε σ PUnit) >>= f) s = f ⟨⟩ (g s) := rfl

theorem set_bind {f : PUnit → EStateM ε σ β} : ((MonadStateOf.set t : EStateM ε σ PUnit) >>= f) s = f ⟨⟩ t := rfl

theorem transaction_ok {work : EStateM ε σ α} : transaction work s = .ok a t ↔ work s = .ok a t := by
  unfold transaction
  cases work s <;> simp

theorem transaction_error {work : EStateM ε σ α} (failed : transaction work s = .error e t) : t = s := by
  unfold transaction at failed
  cases ran : work s with
  | ok a written =>
    rw [ran] at failed
    cases failed
  | error e' written =>
    rw [ran] at failed
    cases failed
    rfl

theorem adaptExcept_ok {ε' : Type u} {f : ε → ε'} {x : EStateM ε σ α} :
    EStateM.adaptExcept f x s = .ok a t ↔ x s = .ok a t := by
  unfold EStateM.adaptExcept
  cases x s <;> simp

/-- The state that a computation leaves, whether it succeeds or fails. -/
def leaves : EStateM.Result ε σ α → σ
  | .ok _ t => t
  | .error _ t => t

/-- What a computation reports, if it succeeds. -/
def reported : EStateM.Result ε σ α → Option α
  | .ok a _ => some a
  | .error _ _ => none

/-- What is made of a result is nothing to the state. -/
theorem leaves_bind_pure {x : EStateM ε σ α} {f : α → β} : leaves ((x >>= fun a => pure (f a)) s) = leaves (x s) := by
  rw [work_bind]
  cases x s <;> rfl

/-- Whatever the state, the computation leaves one that is related to it. -/
def Relates (R : σ → σ → Prop) (x : EStateM ε σ α) : Prop := ∀ s, R s (leaves (x s))

section
variable {R : σ → σ → Prop} {x : EStateM ε σ α} {f : α → EStateM ε σ β}

theorem Relates.pure (refl : ∀ s, R s s) (a : α) : Relates R (Pure.pure a : EStateM ε σ α) := fun s => refl s

theorem Relates.throw (refl : ∀ s, R s s) (e : ε) : Relates R (MonadExcept.throw e : EStateM ε σ α) := fun s => refl s

theorem Relates.throw_bind (refl : ∀ s, R s s) (e : ε) : Relates R ((MonadExcept.throw e : EStateM ε σ α) >>= f) :=
  fun s => refl s

theorem Relates.get (refl : ∀ s, R s s) : Relates R (MonadState.get : EStateM ε σ σ) := fun s => refl s

theorem Relates.modify {g : σ → σ} (step : ∀ s, R s (g s)) : Relates R (modifyThe σ g : EStateM ε σ PUnit) := step

theorem Relates.of_ok (relates : Relates R x) (ran : x s = .ok a t) : R s t := by
  have related := relates s
  rw [ran] at related
  exact related

theorem Relates.bind (trans : ∀ s t r, R s t → R t r → R s r) (first : Relates R x) (rest : ∀ a, Relates R (f a)) :
    Relates R (x >>= f) := by
  intro s
  have before := first s
  rw [work_bind]
  cases ran : x s with
  | ok a t =>
    rw [ran] at before
    exact trans s t _ before (rest a t)
  | error e t =>
    rw [ran] at before
    exact before

theorem Relates.forM {f : α → EStateM ε σ PUnit} {l : List α} (refl : ∀ s, R s s) (trans : ∀ s t r, R s t → R t r → R s r)
    (each : ∀ a ∈ l, Relates R (f a)) : Relates R (l.forM f) := by
  induction l with
  | nil => exact Relates.pure refl _
  | cons a l ih => exact Relates.bind trans (each a (.head _)) (fun _ => ih (fun b inside => each b (.tail _ inside)))

/-- Each member of a list that is gone through has had its turn. -/
theorem forM_mem {f : α → EStateM ε σ PUnit} {l : List α} (refl : ∀ s, R s s) (trans : ∀ s t r, R s t → R t r → R s r)
    (each : ∀ a ∈ l, Relates R (f a)) (ok : l.forM f s = .ok ⟨⟩ t) : ∀ a ∈ l, ∃ r u, R s r ∧ f a r = .ok ⟨⟩ u ∧ R u t := by
  induction l generalizing s with
  | nil => exact fun a inside => nomatch inside
  | cons b l ih =>
    change (f b >>= fun _ => l.forM f) s = .ok ⟨⟩ t at ok
    obtain ⟨_,mid,first,rest⟩ := work_bind_ok.mp ok
    have step := (each b (.head _)).of_ok first
    have later : ∀ a ∈ l, Relates R (f a) := fun a inside => each a (.tail _ inside)
    intro a inside
    rcases List.mem_cons.mp inside with rfl | inside
    · exact ⟨s,mid,refl s,first,(Relates.forM refl trans later).of_ok rest⟩
    · obtain ⟨r,u,before,turn,after⟩ := ih later rest a inside
      exact ⟨r,u,trans _ _ _ step before,turn,after⟩

theorem Relates.adaptExcept {ε' : Type u} {g : ε → ε'} (inner : Relates R x) : Relates R (EStateM.adaptExcept g x) := by
  intro s
  have before := inner s
  unfold EStateM.adaptExcept
  cases ran : x s with
  | ok a t => rw [ran] at before; exact before
  | error e t => rw [ran] at before; exact before

theorem Relates.transaction (refl : ∀ s, R s s) (work : ∀ s a t, x s = .ok a t → R s t) :
    Relates R (Fallible.transaction x) := by
  intro s
  cases ran : Fallible.transaction x s with
  | ok a t => exact work s a t (transaction_ok.mp ran)
  | error e t => exact transaction_error ran ▸ refl s

/-- The computation writes nothing if it fails. -/
def Atomic (x : EStateM ε σ α) : Prop := ∀ s e t, x s = .error e t → t = s

theorem Atomic.throw (e : ε) : Atomic (MonadExcept.throw e : EStateM ε σ α) := by
  intro s e' t failed
  cases failed
  rfl

theorem Atomic.throw_bind (e : ε) : Atomic ((MonadExcept.throw e : EStateM ε σ α) >>= f) := by
  intro s e' t failed
  cases failed
  rfl

theorem Atomic.transaction (x : EStateM ε σ α) : Atomic (Fallible.transaction x) := fun _ _ _ => transaction_error

theorem Atomic.adaptExcept {ε' : Type u} {g : ε → ε'} (inner : Atomic x) : Atomic (EStateM.adaptExcept g x) := by
  intro s e t failed
  unfold EStateM.adaptExcept at failed
  cases ran : x s with
  | ok a t' => rw [ran] at failed; cases failed
  | error e' t' =>
    rw [ran] at failed
    cases failed
    exact inner s e' t ran

/-- After work that only reads. -/
theorem Atomic.bind (reads : Relates (fun s t => t = s) x) (rest : ∀ a, Atomic (f a)) : Atomic (x >>= f) := by
  intro s e t failed
  have same := reads s
  rw [work_bind] at failed
  cases ran : x s with
  | ok a t' =>
    rw [ran] at failed same
    obtain rfl : t' = s := same
    exact rest a t' e t failed
  | error e' t' =>
    rw [ran] at failed same
    cases failed
    exact same

end

/-! ### What a computation does from a state -/

/-- From this state the computation gives a result and a state with `ok`, or it fails and
    leaves a state with `bad`. -/
def Does (x : EStateM ε σ α) (s : σ) (ok : α → σ → Prop) (bad : σ → Prop) : Prop :=
  match x s with
  | .ok a t => ok a t
  | .error _ t => bad t

section
variable {x : EStateM ε σ α} {f : α → EStateM ε σ β} {ok : α → σ → Prop} {ok' : β → σ → Prop} {bad : σ → Prop}

theorem Does.bind (first : Does x s ok bad) (rest : ∀ a t, ok a t → Does (f a) t ok' bad) : Does (x >>= f) s ok' bad := by
  unfold Does at first ⊢
  rw [work_bind]
  cases ran : x s with
  | ok a t => exact rest a t (by rwa [ran] at first)
  | error e t => rwa [ran] at first

theorem Does.pure {a : α} (holds : ok a s) : Does (Pure.pure a : EStateM ε σ α) s ok bad := holds

theorem Does.throw {e : ε} (holds : bad s) : Does (MonadExcept.throw e : EStateM ε σ α) s ok bad := holds

theorem Does.throw_bind {e : ε} (holds : bad s) : Does ((MonadExcept.throw e : EStateM ε σ α) >>= f) s ok' bad := holds

/-- A computation that is the same as another from another state does the same. -/
theorem Does.of_eq {y : EStateM ε σ α} {t : σ} (same : x s = y t) (does : Does y t ok bad) : Does x s ok bad := by
  unfold Does at does ⊢
  rw [same]
  exact does

theorem Does.mono {ok'' : α → σ → Prop} {bad' : σ → Prop} (does : Does x s ok bad) (more : ∀ a t, ok a t → ok'' a t)
    (more' : ∀ t, bad t → bad' t) : Does x s ok'' bad' := by
  unfold Does at does ⊢
  cases ran : x s with
  | ok a t => exact more a t (by rwa [ran] at does)
  | error e t => exact more' t (by rwa [ran] at does)

/-- A transaction that fails leaves the state as it was. -/
theorem Does.transaction (does : Does x s ok (fun _ => True)) (unchanged : bad s) : Does (Fallible.transaction x) s ok bad := by
  unfold Does Fallible.transaction at *
  cases ran : x s with
  | ok a t => rwa [ran] at does
  | error e t => exact unchanged

theorem Relates.does {R : σ → σ → Prop} (relates : Relates R x) (s : σ) : Does x s (fun _ t => R s t) (R s) := by
  have related := relates s
  unfold Does
  cases ran : x s with
  | ok a t => rwa [ran] at related
  | error e t => rwa [ran] at related

theorem Does.left (does : Does x s ok bad) : (∃ a, ok a (Fallible.leaves (x s))) ∨ bad (Fallible.leaves (x s)) := by
  unfold Does at does
  cases ran : x s with
  | ok a t =>
    rw [ran] at does
    exact .inl ⟨a,does⟩
  | error e t =>
    rw [ran] at does
    exact .inr does

theorem Does.reported {o : Option α} (does : Does x s ok bad) (reports : ∀ a t, ok a t → o = some a) (fails : ∀ t, bad t → o = none) :
    Fallible.reported (x s) = o := by
  unfold Does at does
  cases ran : x s with
  | ok a t =>
    rw [ran] at does
    exact (reports a t does).symm
  | error e t =>
    rw [ran] at does
    exact (fails t does).symm

theorem Does.leaves {P : σ → Prop} (does : Does x s (fun _ => P) P) : P (leaves (x s)) := by
  unfold Does at does
  cases ran : x s with
  | ok a t => rwa [ran] at does
  | error e t => rwa [ran] at does

end

/-! ### Writes that may be refused -/

section
variable {ι : Type*} {refused : ι → Option ε} {l l' : List (ι × (σ → σ))}

/-- Writes one after the other, up to the first that is refused. -/
def writes (refused : ι → Option ε) : List (ι × (σ → σ)) → EStateM ε σ PUnit
  | [] => Pure.pure ⟨⟩
  | (i,write) :: rest => fun s =>
    match refused i with
    | some e => .error e s
    | none => writes refused rest (write s)

/-- What writes make of a state. -/
def written (l : List (ι × (σ → σ))) (s : σ) : σ := l.foldl (fun s w => w.2 s) s

theorem writes_append : writes refused (l ++ l') s = (writes refused l >>= fun _ => writes refused l') s := by
  induction l generalizing s with
  | nil => rfl
  | cons w l ih =>
    rw [work_bind,List.cons_append,writes,writes]
    cases refused w.1 with
    | some e => rfl
    | none => exact (ih (s := w.2 s)).trans work_bind

theorem writes_accepted (accepted : ∀ w ∈ l, refused w.1 = none) : writes refused l s = .ok ⟨⟩ (written l s) := by
  induction l generalizing s with
  | nil => rfl
  | cons w l ih =>
    rw [writes,accepted w (.head _)]
    exact ih (fun w' later => accepted w' (.tail _ later))

/-- A write that is refused leaves what the writes before it have made. -/
theorem writes_refused {w : ι × (σ → σ)} (accepted : ∀ w ∈ l, refused w.1 = none) (refuses : refused w.1 = some e) :
    writes refused (l ++ w :: l') s = .error e (written l s) := by
  rw [writes_append,work_bind,writes_accepted accepted]
  simp only [writes,refuses]

/-- All writes are accepted, or there is a first that is refused. -/
theorem first_refused (refused : ι → Option ε) (l : List (ι × (σ → σ))) :
    (∀ w ∈ l, refused w.1 = none) ∨
      ∃ before w after e, l = before ++ w :: after ∧ (∀ w ∈ before, refused w.1 = none) ∧ refused w.1 = some e := by
  induction l with
  | nil => exact .inl nofun
  | cons w l ih =>
    cases first : refused w.1 with
    | some e => exact .inr ⟨[],w,l,e,rfl,nofun,first⟩
    | none =>
      rcases ih with accepted | ⟨before,w',after,e,rfl,accepted,refuses⟩
      · exact .inl (List.forall_mem_cons.mpr ⟨first,accepted⟩)
      · exact .inr ⟨w :: before,w',after,e,rfl,List.forall_mem_cons.mpr ⟨first,accepted⟩,refuses⟩

theorem first_refused_unique {before before' after after' : List (ι × (σ → σ))} {w w' : ι × (σ → σ)}
    (same : before ++ w :: after = before' ++ w' :: after') (accepted : ∀ b ∈ before, refused b.1 = none)
    (accepted' : ∀ b ∈ before', refused b.1 = none) (refuses : (refused w.1).isSome) (refuses' : (refused w'.1).isSome) :
    before = before' := by
  induction before generalizing before' with
  | nil =>
    cases before' with
    | nil => rfl
    | cons b rest =>
      obtain ⟨rfl,-⟩ := List.cons.inj same
      rw [accepted' w (.head _)] at refuses
      cases refuses
  | cons b rest ih =>
    cases before' with
    | nil =>
      obtain ⟨rfl,-⟩ := List.cons.inj same
      rw [accepted b (.head _)] at refuses'
      cases refuses'
    | cons b' rest' =>
      obtain ⟨rfl,later⟩ := List.cons.inj same
      rw [ih later (fun b inside => accepted b (.tail _ inside)) (fun b inside => accepted' b (.tail _ inside))]

/-- A computation that makes the given writes from the states that satisfy `pre`, and leads
    them to states that satisfy `post`. -/
def Makes (refused : ι → Option ε) (pre : σ → Prop) (x : EStateM ε σ PUnit) (l : List (ι × (σ → σ))) (post : σ → Prop) : Prop :=
  ∀ s, pre s → x s = writes refused l s ∧ post (written l s)

theorem Makes.bind {pre mid post : σ → Prop} {x y : EStateM ε σ PUnit} (first : Makes refused pre x l mid)
    (second : Makes refused mid y l' post) : Makes refused pre (x >>= fun _ => y) (l ++ l') post := by
  intro s holds
  obtain ⟨same,reaches⟩ := first s holds
  obtain ⟨same',reaches'⟩ := second _ reaches
  refine ⟨?_,by rwa [written,List.foldl_append]⟩
  rw [writes_append,work_bind,work_bind,same]
  rcases first_refused refused l with accepted | ⟨before,w,after,e,rfl,accepted,refuses⟩
  · rw [writes_accepted accepted]
    exact same'
  · rw [writes_refused accepted refuses]

end
end
end Fallible
