import IndexQuery.Pass.FlatMap
import IndexQuery.Proofs.Expr.Views

/-! How a flat map is taken apart, and what its parts have in common with its arguments. -/

namespace IndexQuery.FlatMap

/-- A flat map is taken apart only if its second argument is a list of two. -/
theorem ofArgs_of_not_pair {Label : Type} {node source : Expr Label} {label : Label}
    {operator : Operator} {type : ValueType} {elements rest : List (Expr Label)}
    (other : ¬ (operator = .list ∧ elements.length = 2)) :
    ofArgs node (source :: .operation label operator type elements :: rest) =
      .error (.unexpectedShape .pair (Expr.operation label operator type elements).render) := by
  -- The operator and the number of elements are all that the first case asks for.
  unfold ofArgs
  split
  · simp_all
  · simp_all
  · simp_all

/-- A second argument that is no operation is no list of two. -/
theorem ofArgs_of_operator? {Label : Type} {node source pair : Expr Label}
    {rest : List (Expr Label)} (other : pair.operator? = none) :
    ofArgs node (source :: pair :: rest) = .error (.unexpectedShape .pair pair.render) := by
  -- Without an operator the second argument is no list.
  cases pair with
  | operation => simp [Expr.operator?] at other
  | _ => rfl

/-- A flat map over a list of two is taken apart by its lambda, and by its variable or its selector. -/
theorem ofArgs_pair {Label : Type} (node source : Expr Label) (label : Label) (type : ValueType)
    (first second : Expr Label) (rest : List (Expr Label)) :
    ofArgs node (source :: .operation label .list type [first, second] :: rest) =
      match first.pathLambda?, second.path?, second.pathLambda? with
      | none, _, _ => .error (.unexpectedShape .element first.render)
      | some (element, body), some partner, _ =>
        .ok { source, element, body, partner, selector? := none }
      | some (element, body), none, some (partner, selector) =>
        .ok { source, element, body, partner, selector? := some selector }
      | some _, none, none =>
        .error (.unexpectedShape (if second.operator?.isSome then .selector else .partner)
          second.render) := by
  rw [ofArgs]
  cases first.pathLambda? with
  | none => rfl
  | some lambda =>
    -- Only an operation can be a selector, so asking for a lambda first makes no difference.
    cases second with
    | operation label operator type args =>
      dsimp only [Expr.path?]
      cases (Expr.operation label operator type args).pathLambda? <;> rfl
    | _ => rfl

/-- The parts of a flat map, each as a view shows it. -/
def map {Label Other : Type} (view : Expr Label → Expr Other) (flatMap : FlatMap Label) :
    FlatMap Other where
  source := view flatMap.source
  element := flatMap.element
  body := view flatMap.body
  partner := flatMap.partner
  selector? := flatMap.selector?.map view

/-- A view that leaves operations, paths and texts has no part in whether a flat map is well formed. -/
theorem ofArgs_map {Label Other : Type} {view : Expr Label → Expr Other}
    (mirrors : Expr.Mirrors view) (node : Expr Label) (args : List (Expr Label)) :
    ofArgs (view node) (args.map view) = (ofArgs node args).map (map view) := by
  rcases args with _ | ⟨source, _ | ⟨pair, rest⟩⟩
  · simp [ofArgs, Except.map, mirrors.render]
  · simp [ofArgs, Except.map, mirrors.render]
  -- The second argument has to be a list of two, and its elements are looked at one by one.
  · have text := mirrors.render pair
    rw [List.map_cons, List.map_cons]
    cases found : pair.operator? with
    | none =>
      rw [ofArgs_of_operator? found, ofArgs_of_operator? ((mirrors.head pair).1.trans found), text]
      rfl
    | some operator =>
      cases pair with
      | operation label operator type elements =>
        obtain ⟨label', viewed⟩ := mirrors.operation label operator type elements
        rw [viewed] at text ⊢
        by_cases two : operator = .list ∧ elements.length = 2
        · obtain ⟨rfl, two⟩ := two
          obtain ⟨first, second, rfl⟩ := List.length_eq_two.mp two
          -- The errors quote the text of an element, which the view leaves.
          rw [List.map_cons, List.map_cons, List.map_nil, ofArgs_pair, ofArgs_pair,
            mirrors.pathLambda?, mirrors.pathLambda?, (mirrors.head second).2.1,
            (mirrors.head second).1, mirrors.render, mirrors.render]
          cases first.pathLambda? with
          | none => rfl
          | some lambda =>
            cases second.path? with
            | some partner => rfl
            | none => cases second.pathLambda? <;> rfl
        -- Any other operation is quoted as a whole.
        · rw [ofArgs_of_not_pair two, ofArgs_of_not_pair (by simpa using two), text]
          rfl
      | _ => simp [Expr.operator?] at found

/-- The parts of a flat map that can be taken apart stand in a list behind the source. -/
theorem ofArgs_ok {Label : Type} {node : Expr Label} {args : List (Expr Label)}
    {flatMap : FlatMap Label} (parts : ofArgs node args = .ok flatMap) :
    ∃ label type first second rest,
      args = flatMap.source :: .operation label .list type [first, second] :: rest ∧
        first.pathLambda? = some (flatMap.element, flatMap.body) ∧
        ((∃ inner, second = .path inner flatMap.partner ∧ flatMap.selector? = none) ∨
          ∃ selector, second.pathLambda? = some (flatMap.partner, selector) ∧
            flatMap.selector? = some selector) := by
  -- Every check that is passed on the way says what one of the parts looks like.
  unfold ofArgs at parts
  split at parts
  · rename_i source label type first second rest
    split at parts
    · simp at parts
    · rename_i element body isLambda
      split at parts
      · rename_i inner partner
        cases parts
        exact ⟨label, type, first, _, rest, rfl, isLambda, .inl ⟨inner, rfl, rfl⟩⟩
      · split at parts
        · simp at parts
        · rename_i partner selector isSelector
          cases parts
          exact ⟨label, type, first, _, rest, rfl, isLambda, .inr ⟨selector, isSelector, rfl⟩⟩
      · simp at parts
  · simp at parts
  · simp at parts

/-- Something that holds of every part of a flat map, and of both variables as paths. -/
structure HoldsOfParts {Label : Type} (holds : Expr Label → Prop) (parts : FlatMap Label) :
    Prop where
  source : holds parts.source
  element : ∃ label, holds (.path label parts.element)
  body : holds parts.body
  partner : ∃ label, holds (.path label parts.partner)
  selector : ∀ selector, parts.selector? = some selector → holds selector

/-- What holds of the arguments of a flat map holds of its parts, if lists and lambdas pass it on to
their arguments. -/
theorem holdsOfParts {Label : Type} {holds : Expr Label → Prop}
    (inherited : ∀ label operator type args, operator = .list ∨ operator = .lambda →
      holds (.operation label operator type args) → ∀ arg ∈ args, holds arg)
    {node : Expr Label} {args : List (Expr Label)} {parts : FlatMap Label}
    (taken : ofArgs node args = .ok parts) (inside : ∀ arg ∈ args, holds arg) :
    HoldsOfParts holds parts := by
  obtain ⟨label, type, first, second, rest, rfl, isLambda, partner⟩ := ofArgs_ok taken
  have ofLambda {expr body : Expr Label} {parameter : Path} (held : holds expr)
      (found : expr.pathLambda? = some (parameter, body)) :
      (∃ inner, holds (.path inner parameter)) ∧ holds body := by
    obtain ⟨label, type, inner, rfl⟩ := Expr.pathLambda?_eq_some found
    have args := inherited label .lambda type _ (.inr rfl) held
    exact ⟨⟨inner, args (.path inner parameter) (by simp)⟩, args body (by simp)⟩
  -- The pair is a list, and what stands in it is a lambda, and a variable or another lambda.
  have pair := inherited label .list type [first, second] (.inl rfl) (inside _ (by simp))
  obtain ⟨element, body⟩ := ofLambda (pair first (by simp)) isLambda
  have source := inside parts.source (by simp)
  obtain ⟨inner, rfl, missing⟩ | ⟨selector, isSelector, found⟩ := partner
  · have partner := pair (.path inner parts.partner) (by simp)
    exact ⟨source, element, body, ⟨inner, partner⟩, by simp [missing]⟩
  · obtain ⟨partner, held⟩ := ofLambda (pair second (by simp)) isSelector
    refine ⟨source, element, body, partner, ?_⟩
    rw [found]
    rintro _ ⟨⟩
    exact held

end IndexQuery.FlatMap
