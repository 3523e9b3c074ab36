import Mathlib.Logic.Basic

namespace Resumption

/-- What a piece of contract code does next: return, revert, or hand control to foreign code and
wait for its answer in whatever store that code leaves behind. -/
inductive Resume (σ ε ρ ω α : Type) where
  | ret (a : α) (s : σ)
  | revert (why : ω)
  | call (c : ε) (s : σ) (k : ρ → σ → Resume σ ε ρ ω α)

/-- Code over a store. Everything between two external calls is one atomic segment. -/
def Code (σ ε ρ ω α : Type) : Type := σ → Resume σ ε ρ ω α

variable {σ ε ρ ω α β : Type}

def Resume.bind : Resume σ ε ρ ω α → (α → Code σ ε ρ ω β) → Resume σ ε ρ ω β
  | .ret a s, f => f a s
  | .revert why, _ => .revert why
  | .call c s k, f => .call c s fun r s' => (k r s').bind f

instance : Monad (Code σ ε ρ ω) where
  pure a := fun s => .ret a s
  bind m f := fun s => (m s).bind f

namespace Code

def get : Code σ ε ρ ω σ := fun s => .ret s s
def modify (f : σ → σ) : Code σ ε ρ ω Unit := fun s => .ret () (f s)
def revert (why : ω) : Code σ ε ρ ω α := fun _ => .revert why
def require (b : Bool) (why : ω) : Code σ ε ρ ω Unit :=
  fun s => if b then .ret () s else .revert why
def external (c : ε) : Code σ ε ρ ω ρ := fun s => .call c s fun r s' => .ret r s'

/-- Run the same code on every element of a list, in order. -/
def each (f : β → Code σ ε ρ ω Unit) : List β → Code σ ε ρ ω Unit
  | [] => pure ()
  | b :: bs => do
      f b
      each f bs

end Code

/-- Specification of a resumption. `P` is owed at each external call, `R` may be assumed when
control comes back, `Q` is owed at the return. The first argument is the store in which the
current segment started. -/
def Resume.Sat (P : ε → σ → σ → Prop) (R : ε → σ → Prop) (Q : σ → α → σ → Prop) :
    σ → Resume σ ε ρ ω α → Prop
  | base, .ret a s => Q base a s
  | _, .revert _ => True
  | base, .call c s k => P c base s ∧ ∀ r s', R c s' → (k r s').Sat P R Q s'

variable {P : ε → σ → σ → Prop} {R : ε → σ → Prop}

@[simp] theorem sat_ret (Q : σ → α → σ → Prop) (base : σ) (a : α) (s : σ) :
    (Resume.ret a s : Resume σ ε ρ ω α).Sat P R Q base ↔ Q base a s := Iff.rfl

@[simp] theorem sat_revert (Q : σ → α → σ → Prop) (base : σ) (why : ω) :
    (Resume.revert why : Resume σ ε ρ ω α).Sat P R Q base ↔ True := Iff.rfl

theorem sat_weaken {P' : ε → σ → σ → Prop} {Q Q' : σ → α → σ → Prop}
    (hP : ∀ c b s, P c b s → P' c b s) (hQ : ∀ b a s, Q b a s → Q' b a s) (base : σ)
    (m : Resume σ ε ρ ω α) (h : m.Sat P R Q base) : m.Sat P' R Q' base := by
  induction m generalizing base with
  | ret a s => exact hQ base a s h
  | revert why => trivial
  | call c s k ih => exact ⟨hP c base s h.1, fun r s' hr => ih r s' s' (h.2 r s' hr)⟩

theorem sat_mono {Q Q' : σ → α → σ → Prop} (hQ : ∀ base a s, Q base a s → Q' base a s)
    (base : σ) (m : Resume σ ε ρ ω α) (h : m.Sat P R Q base) : m.Sat P R Q' base :=
  sat_weaken (fun _ _ _ hP => hP) hQ base m h

/-- Sequencing: the second piece starts in whatever segment the first one returned in. -/
theorem sat_bind {Q : σ → β → σ → Prop} (base : σ) (m : Resume σ ε ρ ω α)
    (f : α → Code σ ε ρ ω β)
    (h : m.Sat P R (fun b a s => (f a s).Sat P R Q b) base) :
    (m.bind f).Sat P R Q base := by
  induction m generalizing base with
  | ret a s => exact h
  | revert why => trivial
  | call c s k ih => exact ⟨h.1, fun r s' hr => ih r s' s' (h.2 r s' hr)⟩

/-- Loop rule: an assertion kept by the body on every element holds after the last one. -/
theorem sat_each {Q : σ → σ → Prop} (f : β → Code σ ε ρ ω Unit) (bs : List β)
    (hf : ∀ b ∈ bs, ∀ base s, Q base s → (f b s).Sat P R (fun b' _ s' => Q b' s') base)
    (base s : σ) (h : Q base s) :
    (Code.each f bs s).Sat P R (fun b' _ s' => Q b' s') base := by
  induction bs generalizing base s with
  | nil => exact h
  | cons b bs ih =>
    apply sat_bind
    refine sat_mono ?_ base _ (hf b (by simp) base s h)
    intro base' _ s' h'
    exact ih (fun d hd => hf d (by simp [hd])) base' s' h'

section Evaluation

variable (s : σ)

@[simp] theorem bind_apply (m : Code σ ε ρ ω α) (f : α → Code σ ε ρ ω β) :
    (m >>= f) s = (m s).bind f := rfl

@[simp] theorem pure_apply (a : α) : (pure a : Code σ ε ρ ω α) s = .ret a s := rfl

@[simp] theorem get_apply : (Code.get : Code σ ε ρ ω σ) s = .ret s s := rfl

@[simp] theorem modify_apply (f : σ → σ) : (Code.modify f : Code σ ε ρ ω Unit) s = .ret () (f s) :=
  rfl

@[simp] theorem revert_apply (why : ω) : (Code.revert why : Code σ ε ρ ω α) s = .revert why := rfl

@[simp] theorem bind_ret (a : α) (f : α → Code σ ε ρ ω β) :
    (Resume.ret a s : Resume σ ε ρ ω α).bind f = f a s := rfl

@[simp] theorem bind_revert (why : ω) (f : α → Code σ ε ρ ω β) :
    (Resume.revert why : Resume σ ε ρ ω α).bind f = .revert why := rfl

end Evaluation

theorem sat_require {Q : σ → Unit → σ → Prop} (base s : σ) (b : Bool) (why : ω)
    (h : b = true → Q base () s) :
    ((Code.require b why : Code σ ε ρ ω Unit) s).Sat P R Q base := by
  cases b with
  | false => trivial
  | true => exact h rfl

/-- Between external calls the code keeps `J`, moves the store along `E` from the start of the
segment, and makes calls only that are idle in the store they are made in. -/
def Steady (J : σ → Prop) (idle : ε → σ → Prop) (E : σ → σ → Prop) (m : Code σ ε ρ ω α) : Prop :=
  ∀ base s, J s → E base s →
    (m s).Sat (fun c b s => idle c s ∧ J s ∧ E b s) (fun _ s => J s) (fun b _ s => J s ∧ E b s) base

abbrev Quiet (idle : ε → Prop) (E : σ → σ → Prop) (m : Code σ ε ρ ω α) : Prop :=
  Steady (fun _ => True) (fun c _ => idle c) E m

section Steady

variable {J : σ → Prop} {idle : ε → σ → Prop} {E : σ → σ → Prop}

theorem steady_pure (a : α) : Steady J idle E (pure a : Code σ ε ρ ω α) :=
  fun _ _ hj h => ⟨hj, h⟩

theorem steady_get : Steady J idle E (Code.get : Code σ ε ρ ω σ) := fun _ _ hj h => ⟨hj, h⟩

theorem steady_revert (why : ω) : Steady J idle E (Code.revert why : Code σ ε ρ ω α) :=
  fun _ _ _ _ => trivial

theorem steady_require (b : Bool) (why : ω) :
    Steady J idle E (Code.require b why : Code σ ε ρ ω Unit) :=
  fun base s hj h => sat_require base s b why fun _ => ⟨hj, h⟩

theorem steady_modify (trans : ∀ a b c, E a b → E b c → E a c) (f : σ → σ)
    (hf : ∀ s, J s → J (f s) ∧ E s (f s)) :
    Steady J idle E (Code.modify f : Code σ ε ρ ω Unit) :=
  fun _ s hj h => ⟨(hf s hj).1, trans _ _ _ h (hf s hj).2⟩

theorem steady_external (refl : ∀ s, E s s) (c : ε) (hc : ∀ s, J s → idle c s) :
    Steady J idle E (Code.external c : Code σ ε ρ ω ρ) :=
  fun _ s hj h => ⟨⟨hc s hj, hj, h⟩, fun _ s' hj' => ⟨hj', refl s'⟩⟩

theorem steady_bind {m : Code σ ε ρ ω α} {f : α → Code σ ε ρ ω β} (hm : Steady J idle E m)
    (hf : ∀ a, Steady J idle E (f a)) : Steady J idle E (m >>= f) := by
  intro base s hj h
  apply sat_bind
  refine sat_mono ?_ base _ (hm base s hj h)
  intro b a s' h'
  exact hf a b s' h'.1 h'.2

theorem steady_each (f : β → Code σ ε ρ ω Unit) (bs : List β)
    (hf : ∀ b ∈ bs, Steady J idle E (f b)) : Steady J idle E (Code.each f bs) := by
  intro base s hj h
  refine sat_each f bs ?_ base s ⟨hj, h⟩
  intro b hb base s hs
  exact hf b hb base s hs.1 hs.2

/-- Steady code in the middle of a segment that started in `base`. `K` holds of the stores in
which its later segments start. -/
theorem steady_sat (refl : ∀ s, E s s) {m : Code σ ε ρ ω α} (hm : Steady J idle E m)
    (K : σ → Prop) {Q : σ → α → σ → Prop} (base s : σ) (hs : J s)
    (hP₀ : ∀ c s', idle c s' → J s' → E s s' → P c base s')
    (hQ₀ : ∀ a s', J s' → E s s' → Q base a s')
    (hR : ∀ c s', R c s' → J s' ∧ K s')
    (hP : ∀ c b s', K b → idle c s' → J s' → E b s' → P c b s')
    (hQ : ∀ b a s', K b → J s' → E b s' → Q b a s') : (m s).Sat P R Q base := by
  have later (k : Resume σ ε ρ ω α) (b : σ) (hb : K b)
      (hk : k.Sat (fun c b s => idle c s ∧ J s ∧ E b s) (fun _ s => J s)
        (fun b _ s => J s ∧ E b s) b) : k.Sat P R Q b := by
    induction k generalizing b with
    | ret a s' => exact hQ b a s' hb hk.1 hk.2
    | revert why => trivial
    | call c s' k ih =>
      obtain ⟨⟨hc, hj, hE⟩, hk⟩ := hk
      refine ⟨hP c b s' hb hc hj hE, ?_⟩
      intro r s'' hr
      obtain ⟨hj', hk'⟩ := hR c s'' hr
      exact ih r s'' s'' hk' (hk r s'' hj')
  have ok := hm s s hs (refl s)
  generalize m s = k at ok
  cases k with
  | ret a s' => exact hQ₀ a s' ok.1 ok.2
  | revert why => trivial
  | call c s' k =>
    obtain ⟨⟨hc, hj, hE⟩, hk⟩ := ok
    refine ⟨hP₀ c s' hc hj hE, ?_⟩
    intro r s'' hr
    obtain ⟨hj', hk'⟩ := hR c s'' hr
    exact later _ s'' hk' (hk r s'' hj')

/-- Code without external calls. -/
theorem atomic_sat (refl : ∀ s, E s s) {m : Code σ ε ρ ω α} (hm : Quiet (fun _ => False) E m)
    {Q : σ → α → σ → Prop} (base s : σ) (hQ : ∀ a s', E s s' → Q base a s') :
    (m s).Sat P R Q base := by
  have ok := hm s s trivial (refl s)
  generalize m s = k at ok
  cases k with
  | ret a s' => exact hQ a s' ok.2
  | revert why => trivial
  | call c s' k => exact ok.1.1.elim

/-- A weaker relation, more calls, and an invariant that the relation keeps. -/
theorem quiet_mono {K : σ → Prop} {calm : ε → Prop} {idle : ε → σ → Prop} {E' : σ → σ → Prop}
    (hi : ∀ c s, calm c → idle c s) (hE : ∀ a b, E a b → E' a b) (hK : ∀ a b, E a b → K a → K b)
    (refl : ∀ s, E s s) (trans : ∀ a b c, E' a b → E' b c → E' a c)
    {m : Code σ ε ρ ω α} (hm : Quiet calm E m) : Steady K idle E' m := by
  intro base s hk h
  refine steady_sat refl hm K base s trivial ?_ ?_ (fun _ _ hs => ⟨trivial, hs⟩) ?_ ?_
  · exact fun c s' hc _ hs => ⟨hi c s' hc, hK _ _ hs hk, trans _ _ _ h (hE _ _ hs)⟩
  · exact fun _ s' _ hs => ⟨hK _ _ hs hk, trans _ _ _ h (hE _ _ hs)⟩
  · exact fun c b s' hb hc _ hs => ⟨hi c s' hc, hK _ _ hs hb, hE _ _ hs⟩
  · exact fun b _ s' hb _ hs => ⟨hK _ _ hs hb, hE _ _ hs⟩

end Steady

end Resumption
