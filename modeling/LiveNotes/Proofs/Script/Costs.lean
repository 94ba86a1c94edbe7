import LiveNotes.Script.Call
import LiveNotes.Proofs.Script.Relation

/-!
Runs of known cost: what they give, and the steps that they charge, under every limit that leaves room.

* `Costs`: a run gives a value at a cost;
* `Costs.bind`, `Costs.within`, `costs_charge`: costs add up;
* `costs_literal`, `Costs.unary`, `costs_textMethod`: the costs of some expressions;
* `invoke_of_costs`: calls of functions whose bodies have a known cost.
-/

namespace LiveNotes.Script

/-- A run that gives a value at a cost, from every machine whose limit leaves room for that. -/
def Costs {α : Type} (limit : Nat) (r : Run α) (cost : Nat) (a : α) : Prop :=
  ∀ m, m.steps + cost ≤ limit → r m = .ok a { m with steps := m.steps + cost }

section Costs

variable {α β : Type} {limit cost cost' total : Nat}

theorem costs_pure (a : α) : Costs limit (pure a) 0 a := fun _ _ => rfl

theorem Costs.bind {r : Run α} {f : α → Run β} {a : α} {b : β} (hr : Costs limit r cost a)
    (hf : Costs limit (f a) cost' b) (ht : cost + cost' = total) : Costs limit (r >>= f) total b := by
  intro m hm
  rw [bind_run_ok (hr m (by omega)), hf _ (by dsimp only; omega), Nat.add_assoc, ht]

theorem Costs.within {r : Run α} {a : α} (hr : Costs limit r cost a) (frame : Frame) :
    Costs limit (within frame r) cost a := by
  intro m hm
  exact within_run_ok (hr { m with frames := frame :: m.frames } hm)

theorem costs_charge (hl : limit ≤ stepCap) : Costs limit (charge limit cost) cost () := by
  intro m hm
  unfold charge
  rw [Nat.min_eq_left (by omega), if_neg (by omega)]

end Costs

section Costs

variable {limit : Nat} (hl : limit ≤ stepCap)
include hl

/-- A literal costs one step. -/
theorem costs_literal {e : Expr} {v : Value} (h : eval limit e = do charge limit 1; return v) :
    Costs limit (eval limit e) 1 v := by
  rw [h]
  exact (costs_charge hl).bind (costs_pure v) rfl

theorem costs_string (s : String) : Costs limit (eval limit (.string s)) 1 (.string s) :=
  costs_literal hl (by rw [eval])

theorem Costs.unary {e : Expr} {v : Value} {cost : Nat} (h : Costs limit (eval limit e) cost v)
    (op : UnaryOp) : Costs limit (eval limit (.unary op e)) (cost + 1) (op.apply v) := by
  rw [eval]
  exact (costs_charge hl).bind (h.bind (costs_pure _) (Nat.add_zero cost)) (Nat.add_comm 1 cost)

theorem costs_evalAll_string {s : String} {es : List Expr} {done vs : List Value} {cost total : Nat}
    (hes : Costs limit (evalAll limit (.string s :: done) es) cost vs) (ht : 1 + cost = total) :
    Costs limit (evalAll limit done (.string s :: es)) total vs := by
  rw [evalAll]
  exact (costs_string hl s).bind hes ht

/-- A method of a text with two texts as arguments, which gives its value without a charge. -/
theorem costs_textMethod {s t u name : String} {m : TextMethod} {v : Value}
    (hn : TextMethod.ofName? name = some m) (hr : m.run limit s [.string t, .string u] = pure v) :
    Costs limit (eval limit (.methodCall (.string s) name [.string t, .string u])) 4 v := by
  have none : Costs limit (evalAll limit [.string u, .string t] []) 0 [.string t, .string u] := by
    rw [evalAll]
    exact costs_pure _
  have args : Costs limit (evalAll limit [] [.string t, .string u]) 2 [.string t, .string u] :=
    costs_evalAll_string hl (costs_evalAll_string hl none rfl) rfl
  have value : Costs limit (m.run limit s [.string t, .string u]) 0 v := by
    rw [hr]
    exact costs_pure v
  have method : Costs limit (callPlainMethod limit (.string s) name
      (evalAll limit [] [.string t, .string u])) 2 v := by
    unfold callPlainMethod
    rw [hn]
    exact args.bind value rfl
  rw [eval]
  exact (costs_charge hl).bind ((costs_pure _).bind ((costs_string hl s).bind method rfl) rfl) rfl

/-- A call whose body has a known cost. -/
theorem invoke_of_costs {f : Lambda} {args : List Value} {cost : Nat} {v : Value}
    (hf : Costs limit (perform limit f.body) cost v) (ha : args.length = f.arity)
    (hcost : 1 + cost ≤ limit) : invoke limit f args = .ok v := by
  have hcall : Costs limit (call limit f args) (1 + cost) v :=
    (costs_charge hl).bind (hf.within _) rfl
  unfold invoke outcome
  rw [if_pos ha, hcall Machine.start (by simpa [Machine.start] using hcost)]

end Costs

end LiveNotes.Script
