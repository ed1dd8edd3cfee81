import Mathlib.Data.List.Basic

/-! # Programs that ask oracles

A program that talks to its surroundings is a tree: it returns, or it asks one of
several oracles a question and goes on with the reply.  An oracle is any function of
how often it has been asked before and of the question, so it can answer the same
question differently each time.

What such a program can observe is what the oracles it asks reply
(`Spec.eval_congr`): whatever the others would have said, the run is the same.
-/
namespace FluaLibs

/-- A program with a result in `α`. -/
inductive Program (ι Q R α : Type) where
  | ret (a : α)
  | ask (i : ι) (q : Q) (next : R → Program ι Q R α)

/-- What each oracle replies to its `n`-th question. -/
abbrev Oracles (ι Q R : Type) : Type := ι → Nat → Q → R

/-- The questions asked so far. -/
abbrev History (ι Q : Type) : Type := List (ι × Q)

namespace Program
variable {ι Q R α β : Type}

/-- Sequencing. -/
def bind : Program ι Q R α → (α → Program ι Q R β) → Program ι Q R β
  | ret a, f => f a
  | ask i q next, f => ask i q (fun r => bind (next r) f)

instance : Monad (Program ι Q R) where
  pure := ret
  bind := bind

/-- Whatever is replied, the program asks only oracles in `s`, and returns a result
that satisfies `post`. -/
def Spec (s : ι → Prop) (post : α → Prop) : Program ι Q R α → Prop
  | ret a => post a
  | ask i _ next => s i ∧ ∀ r, Spec s post (next r)

section Spec
variable {s t : ι → Prop} {post post' : α → Prop}

theorem spec_pure {a : α} (h : post a) : (pure a : Program ι Q R α).Spec s post := h

theorem Spec.mono {p : Program ι Q R α} (h : p.Spec s post) (hs : ∀ i, s i → t i)
    (hpost : ∀ a, post a → post' a) : p.Spec t post' := by
  induction p with
  | ret a => exact hpost a h
  | ask i q next ih => exact ⟨hs i h.1, fun r => ih r (h.2 r)⟩

theorem Spec.bind {p : Program ι Q R α} {f : α → Program ι Q R β} {final : β → Prop}
    (h : p.Spec s post) (hf : ∀ a, post a → (f a).Spec s final) : (p >>= f).Spec s final := by
  induction p with
  | ret a => exact hf a h
  | ask i q next ih => exact ⟨h.1, fun r => ih r (h.2 r)⟩

end Spec

/-! ## Runs -/

section Runs
variable [DecidableEq ι] (o : Oracles ι Q R)

/-- The reply to a question after a history. -/
def reply (history : History ι Q) (i : ι) (q : Q) : R :=
  o i (history.countP (fun e => e.1 = i)) q

/-- The result of the program after a history. -/
def eval : Program ι Q R α → History ι Q → α
  | ret a, _ => a
  | ask i q next, history => eval (next (reply o history i q)) (history ++ [(i, q)])

/-- The questions the program asks after a history. -/
def asked : Program ι Q R α → History ι Q → History ι Q
  | ret _, _ => []
  | ask i q next, history =>
    (i, q) :: asked (next (reply o history i q)) (history ++ [(i, q)])

theorem eval_ask_bind (i : ι) (q : Q) (f : R → Program ι Q R α) (history : History ι Q) :
    (ask i q .ret >>= f).eval o history =
      (f (reply o history i q)).eval o (history ++ [(i, q)]) := rfl

theorem asked_ask_bind (i : ι) (q : Q) (f : R → Program ι Q R α) (history : History ι Q) :
    (ask i q .ret >>= f).asked o history =
      (i, q) :: (f (reply o history i q)).asked o (history ++ [(i, q)]) := rfl

theorem eval_bind (p : Program ι Q R α) (f : α → Program ι Q R β) (history : History ι Q) :
    (p >>= f).eval o history = (f (p.eval o history)).eval o (history ++ p.asked o history) := by
  induction p generalizing history with
  | ret a => rw [asked, List.append_nil]; rfl
  | ask i q next ih =>
    rw [asked, List.append_cons]
    exact ih _ _

variable {o} {s : ι → Prop} {post : α → Prop} {p : Program ι Q R α}

theorem Spec.mem_asked (h : p.Spec s post) (history : History ι Q) :
    ∀ e ∈ p.asked o history, s e.1 := by
  induction p generalizing history with
  | ret a => exact fun e he => nomatch he
  | ask i q next ih =>
    intro e he
    rcases List.mem_cons.mp he with rfl | he
    · exact h.1
    · exact ih _ (h.2 _) _ e he

theorem Spec.eval (h : p.Spec s post) (history : History ι Q) : post (p.eval o history) := by
  induction p generalizing history with
  | ret a => exact h
  | ask i q next ih => exact ih _ (h.2 _) _

/-- **Only the oracles that can be asked matter.** -/
theorem Spec.eval_congr {o' : Oracles ι Q R} (h : p.Spec s post) (ho : ∀ i, s i → o' i = o i)
    (history : History ι Q) :
    p.eval o' history = p.eval o history ∧ p.asked o' history = p.asked o history := by
  induction p generalizing history with
  | ret a => exact ⟨rfl, rfl⟩
  | ask i q next ih =>
    have hreply : reply o' history i q = reply o history i q := by
      rw [reply, reply, ho i h.1]
    obtain ⟨heval, hasked⟩ := ih (reply o history i q) (h.2 _) (history ++ [(i, q)])
    constructor
    · show Program.eval o' (next (reply o' history i q)) _ = _
      rw [hreply, heval]
      rfl
    · show (i, q) :: asked o' (next (reply o' history i q)) _ = _
      rw [hreply, hasked]
      rfl

end Runs

end Program
end FluaLibs
