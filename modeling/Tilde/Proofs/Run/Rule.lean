import Tilde.Proofs.Run.Moves

/-!
# Rules that runs obey

A rule says where a node may be begun. A run obeys the rule if it would be the same run if every
forbidden node made it fail.

* `Rule`: what is allowed, given what is known of the surroundings;
* `Action.runUnder`: a run that fails where the rule is broken;
* `Action.Obeys`: the rule is not broken;
* **`Travel.guides_runUnder`**: what every step of a cursor keeps that the rule allows, a run that
  obeys the rule keeps, too.
-/

namespace Tilde

/-- Where nodes may be begun, given what is known of the surroundings, and what is known inside of a
node when others are run there from a cursor. -/
structure Rule (σ : Type) where
  allows : σ → Node → Cursor → Prop
  inside : σ → Node → Cursor → σ

namespace Action

variable {σ : Type}

open Classical in
/-- Runs nodes from left to right, but fails where the rule forbids to begin one. -/
noncomputable def runNodesUnder (rule : Rule σ) (e : Fault) (passes : Nat) (run : σ → Runner)
    (x : σ) (route : Route) : List Node → Cursor → Action Tilde.Outcome
  | [], c => return (c, none)
  | n :: ns, c => do
    if rule.allows x n c then
      match ← runNode passes (fun route nodes c' => run (rule.inside x n c') route nodes c')
          route n c with
      | (c, none) => runNodesUnder rule e passes run x route ns c
      | (c, some exit) => return (c, some exit)
    else throw e

/-- Runs nodes that are nested at most so deep, but fails where the rule forbids to begin one. -/
noncomputable def runUnder (rule : Rule σ) (e : Fault) (passes : Nat) : Nat → σ → Runner
  | 0, _ => fun _ _ _ => throw .tooDeep
  | depth + 1, x => fun route nodes c => do
    runNodesUnder rule e passes (runUnder rule e passes depth) x (← descend route 2) nodes c

/-- The run never breaks the rule: it would be the same if that made it fail, for whatever
reason. -/
def Obeys (rule : Rule σ) (x : σ) (passes depth : Nat) (route : Route) (nodes : List Node)
    (c : Cursor) (s : Stream) : Prop :=
  ∀ e, runUnder rule e passes depth x route nodes c s = runWithin passes depth route nodes c s

end Action

namespace Travel

variable {σ : Type} {R : Cursor → Cursor → Prop} {rule : Rule σ}

theorem runNodesUnder (T : ∀ x, Travel R (rule.allows x) fun _ => True) {run : σ → Runner}
    (hrun : ∀ x, Guides R (fun _ => True) (run x)) (e : Fault) (passes : Nat) (x : σ)
    (route : Route) (nodes : List Node) (c : Cursor) :
    (Action.runNodesUnder rule e passes run x route nodes c).Yields fun o => R c o.1 := by
  induction nodes generalizing c with
  | nil => exact .pure ((T x).refl c)
  | cons n nodes ih =>
    unfold Action.runNodesUnder
    split
    · rename_i hallowed
      have hinside : Guides R (fun _ => True) fun route nodes c' =>
          run (rule.inside x n c') route nodes c' := fun route nodes c' h =>
        hrun (rule.inside x n c') route nodes c' h
      refine ((T x).runNode hinside hallowed).bind ?_
      rintro ⟨c₁, exit⟩ hc
      cases exit with
      | none => exact (ih c₁).mono fun _ => (T x).trans hc
      | some exit => exact .pure hc
    · exact .throw

/-- **From the start to the end of every run under the rule, the relation holds.** -/
theorem guides_runUnder (T : ∀ x, Travel R (rule.allows x) fun _ => True) (e : Fault)
    (passes depth : Nat) (x : σ) :
    Guides R (fun _ => True) (Action.runUnder rule e passes depth x) := by
  induction depth generalizing x with
  | zero => exact fun _ _ _ _ => .throw
  | succ depth ih =>
    exact fun _ nodes c _ => .after fun route => runNodesUnder T ih e passes x route nodes c

end Travel

end Tilde
