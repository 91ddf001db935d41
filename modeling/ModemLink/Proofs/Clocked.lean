import Mathlib.Order.Defs.Unbundled
import ModemLink.Duration

/-!
# Reasoning about actions that an overflow may cut short

An action ends with an answer, or an overflow cuts it short and what it did before stays.  A
statement about it therefore has two parts: `post`, what holds of the answer and the state when the
action ends, and `cut`, what holds of the state when it is cut short.  `Clocked.wp act post cut s`
says both of the action from the state `s`.

* `wp_bind`, `wp_get`, `wp_set`, `wp_pure`, `wp_within` -- one rule for each way to put actions
  together;
* `wp.mono` -- weaker statements follow;
* `Moves`, `Leads` -- an action leads from each state to one that it is related to, put together as
  actions are.
-/

namespace ModemLink

namespace Clocked

variable {σ τ α β : Type}

/-- What holds after an action: `post` of its answer and state if it ends, `cut` of its state if an
overflow cuts it short. -/
def wp (act : Clocked σ α) (post : α → σ → Prop) (cut : σ → Prop) (s : σ) : Prop :=
  match act s with
  | .ok a t => post a t
  | .error _ t => cut t

variable {post post' : α → σ → Prop} {cut cut' : σ → Prop} {s : σ}

theorem wp_of_ok {act : Clocked σ α} {a : α} {t : σ} (h : act s = .ok a t) :
    wp act post cut s ↔ post a t := by
  simp only [wp, h]

theorem wp_of_error {act : Clocked σ α} {overflow : Overflow} {t : σ}
    (h : act s = .error overflow t) : wp act post cut s ↔ cut t := by
  simp only [wp, h]

/-- Actions that come to the same are judged the same. -/
theorem wp_of_eq {act other : Clocked σ α} {t : σ} (h : act s = other t) :
    wp act post cut s ↔ wp other post cut t := by
  simp only [wp, h]

/-- It is enough to look at each of the two endings. -/
theorem wp_intro {act : Clocked σ α} (hpost : ∀ a t, act s = .ok a t → post a t)
    (hcut : ∀ overflow t, act s = .error overflow t → cut t) : wp act post cut s := by
  unfold wp
  split
  · rename_i a t heq
    exact hpost a t heq
  · rename_i overflow t heq
    exact hcut overflow t heq

/-- What follows from the postconditions follows from the action. -/
theorem wp.mono {act : Clocked σ α} (h : wp act post cut s) (hpost : ∀ a t, post a t → post' a t)
    (hcut : ∀ t, cut t → cut' t) : wp act post' cut' s := by
  unfold wp at h ⊢
  split
  · rename_i a t heq
    rw [heq] at h
    exact hpost a t h
  · rename_i overflow t heq
    rw [heq] at h
    exact hcut t h

theorem bind_of_ok {act : Clocked σ α} {a : α} {t : σ} (h : act s = .ok a t)
    (next : α → Clocked σ β) : (act >>= next) s = next a t := by
  simp [bind, EStateM.bind, h]

theorem bind_of_error {act : Clocked σ α} {overflow : Overflow} {t : σ}
    (h : act s = .error overflow t) (next : α → Clocked σ β) :
    (act >>= next) s = .error overflow t := by
  simp [bind, EStateM.bind, h]

/-- The second action starts where the first one ended. -/
@[simp] theorem wp_bind (act : Clocked σ α) (next : α → Clocked σ β) (post : β → σ → Prop) :
    wp (act >>= next) post cut s ↔ wp act (fun a t => wp (next a) post cut t) cut s := by
  cases h : act s with
  | ok a t =>
      rw [wp_of_ok h]
      simp only [wp, bind_of_ok h]
  | error overflow t => rw [wp_of_error h, wp_of_error (bind_of_error h next)]

@[simp] theorem wp_pure (a : α) : wp (pure a) post cut s ↔ post a s := Iff.rfl

@[simp] theorem wp_get (post : σ → σ → Prop) : wp get post cut s ↔ post s s := Iff.rfl

@[simp] theorem wp_set (t : σ) (post : PUnit → σ → Prop) :
    wp (set t) post cut s ↔ post ⟨⟩ t := Iff.rfl

/-- An action on a part of the state is judged by what it does there. -/
theorem wp_within (get : σ → τ) (set : τ → σ → σ) (act : Clocked τ α) :
    wp (within get set act) post cut s ↔
      wp act (fun a t => post a (set t s)) (fun t => cut (set t s)) (get s) := by
  unfold wp within
  cases act (get s) <;> rfl

/-! ## From one state to the next -/

/-- No demand on the state that an action is cut short in. -/
def Anything (_ _ : σ) : Prop := True

/-- What is demanded where an action is cut short is demanded of those before it too. -/
class Absorbs (r halted : σ → σ → Prop) : Prop where
  absorb {a b c : σ} : r a b → halted b c → halted a c

instance (r : σ → σ → Prop) : Absorbs r Anything := ⟨fun _ _ => trivial⟩

instance (r : σ → σ → Prop) [IsTrans σ r] : Absorbs r r :=
  ⟨fun hab hbc => IsTrans.trans _ _ _ hab hbc⟩

/-- An action that ends leads to a state that `r` relates to the one it started from, and one that
is cut short to a state that `halted` does. -/
def Moves (r halted : σ → σ → Prop) (act : Clocked σ α) : Prop :=
  ∀ s, wp act (fun _ t => r s t) (halted s) s

/-- An action that ends leads to a state related to the one it started from. -/
abbrev Leads (r : σ → σ → Prop) (act : Clocked σ α) : Prop := Moves r Anything act

variable {r r' halted : σ → σ → Prop}

theorem Leads.imp {act : Clocked σ α} (h : Leads r act) (himp : ∀ s t, r s t → r' s t) :
    Leads r' act :=
  fun s => (h s).mono (fun _ t => himp s t) fun _ _ => trivial

variable [IsPreorder σ r]

theorem moves_pure (a : α) : Moves r halted (pure a : Clocked σ α) :=
  fun s => Std.Refl.refl s

theorem moves_get : Moves r halted (get : Clocked σ σ) :=
  fun s => Std.Refl.refl s

/-- Whoever stands where an action starts from goes where it leads. -/
theorem Moves.mono {act : Clocked σ α} [Absorbs r halted] (h : Moves r halted act)
    {post : α → σ → Prop} {first : σ} (hs : r first s)
    (hpost : ∀ a t, r first t → post a t) : wp act post (halted first) s :=
  (h s).mono (fun a t ht => hpost a t (IsTrans.trans first s t hs ht))
    fun _ ht => Absorbs.absorb hs ht

theorem Moves.bind {act : Clocked σ α} {next : α → Clocked σ β} [Absorbs r halted]
    (h : Moves r halted act) (hnext : ∀ a, Moves r halted (next a)) :
    Moves r halted (act >>= next) := by
  intro s
  rw [wp_bind]
  refine (h s).mono (fun a t ht => ?_) fun _ ht => ht
  exact (hnext a).mono ht fun _ _ hu => hu

end Clocked

end ModemLink
