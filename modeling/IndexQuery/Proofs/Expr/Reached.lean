import IndexQuery.Expr.Basic

/-! The nodes of an expression that a walk comes to, and lists that a walk takes member by member. -/

namespace IndexQuery

section Pairs

variable {α β γ : Type} {args : List α} {results : List β}

/-- Views agree on lists of one length if they agree on the members that belong together. -/
theorem map_eq_iff_zip (view : β → γ) (kept : α → γ) (length : args.length = results.length) :
    results.map view = args.map kept ↔ ∀ pair ∈ args.zip results, view pair.2 = kept pair.1 := by
  -- Each member of one list belongs to the member at its place in the other.
  induction args generalizing results with
  | nil => simp [List.length_eq_zero_iff.mp length.symm]
  | cons first rest ih =>
    cases results with
    | nil => simp at length
    | cons result others => simp [ih (Nat.succ.inj length)]

/-- Every member of the first list belongs to one of the second. -/
theorem exists_pair_of_arg (length : args.length = results.length) {arg : α} (member : arg ∈ args) :
    ∃ result, (arg, result) ∈ args.zip results := by
  -- The first parts of the pairs are all members of the first list.
  rw [← List.map_fst_zip (Nat.le_of_eq length)] at member
  obtain ⟨⟨_, result⟩, together, rfl⟩ := List.mem_map.mp member
  exact ⟨result, together⟩

/-- Every member of the second list belongs to one of the first. -/
theorem exists_pair_of_result (length : args.length = results.length) {result : β}
    (member : result ∈ results) : ∃ arg, (arg, result) ∈ args.zip results := by
  -- The second parts of the pairs are all members of the second list.
  rw [← List.map_snd_zip (Nat.le_of_eq length.symm)] at member
  obtain ⟨⟨arg, _⟩, together, rfl⟩ := List.mem_map.mp member
  exact ⟨arg, together⟩

end Pairs

namespace Expr

variable {Label : Type}

mutual

/-- The nodes that a walk comes to, a node before its arguments. -/
def reached (enters : Expr Label → Bool) : Expr Label → List (Expr Label)
  | .operation label operator type args =>
    .operation label operator type args ::
      if enters (.operation label operator type args) then reachedAll enters args else []
  | .factory label type args =>
    .factory label type args ::
      if enters (.factory label type args) then reachedAll enters args else []
  | .template label text type args =>
    .template label text type args ::
      if enters (.template label text type args) then reachedAll enters args else []
  | .constant label value type => [.constant label value type]
  | .path label target => [.path label target]
  | .param label name type => [.param label name type]
  | .subquery label query => [.subquery label query]

/-- The nodes that a walk over a list comes to. -/
def reachedAll (enters : Expr Label → Bool) : List (Expr Label) → List (Expr Label)
  | [] => []
  | first :: rest => first.reached enters ++ reachedAll enters rest

end

/-- The members of a list are walked through one by one. -/
@[simp] theorem reachedAll_eq_flatMap (enters : Expr Label → Bool) (exprs : List (Expr Label)) :
    reachedAll enters exprs = exprs.flatMap (reached enters) := by
  induction exprs with
  | nil => rfl
  | cons first rest ih => simp [reachedAll, ih]

/-- A walk comes to the expression itself, and through its arguments if it enters them. -/
theorem reached_eq (enters : Expr Label → Bool) (expr : Expr Label) :
    expr.reached enters =
      expr :: if enters expr then expr.args.flatMap (reached enters) else [] := by
  cases expr <;> simp [reached, args]

/-- A walk comes to the expression itself. -/
theorem mem_reached (enters : Expr Label → Bool) (expr : Expr Label) :
    expr ∈ expr.reached enters := by
  rw [reached_eq]
  exact List.mem_cons_self

/-- Where a walk comes to in an argument, it comes to in an expression whose arguments it enters. -/
theorem reached_subset {enters : Expr Label → Bool} {expr arg : Expr Label}
    (entered : enters expr = true) (member : arg ∈ expr.args) :
    arg.reached enters ⊆ expr.reached enters := by
  -- Behind the expression itself stands what is reached in any of its arguments.
  intro node inside
  rw [reached_eq, if_pos entered]
  exact List.mem_cons_of_mem _ (List.mem_flatMap.mpr ⟨arg, member, inside⟩)

/-- What holds of an expression whenever it holds of all that a walk comes to in the arguments holds of
every expression. -/
theorem reached_induct (enters : Expr Label → Bool) {motive : Expr Label → Prop}
    (step : ∀ expr, (∀ arg ∈ expr.args, ∀ inner ∈ arg.reached enters, motive inner) → motive expr)
    (expr : Expr Label) : motive expr := by
  suffices all : ∀ inner ∈ expr.reached enters, motive inner from all expr (mem_reached enters expr)
  -- The property of everything in its reach passes from the arguments to the expression.
  induction expr with
  | operation _ _ _ args ih | factory _ _ args ih | template _ _ _ args ih =>
    intro inner inside
    rw [reached_eq] at inside
    rcases List.mem_cons.mp inside with rfl | inside
    · exact step _ ih
    · split at inside
      · obtain ⟨arg, member, stands⟩ := List.mem_flatMap.mp inside
        exact ih arg member inner stands
      · cases inside
  | _ =>
    intro inner inside
    obtain rfl := List.mem_singleton.mp inside
    exact step _ (by simp [args])

end Expr

end IndexQuery
