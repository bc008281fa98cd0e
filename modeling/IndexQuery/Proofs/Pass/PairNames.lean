import IndexQuery.Proofs.Pass.PairSelectors
import IndexQuery.Proofs.Text.Collisions

/-! The names that a flat map without a selector gives to its pair: two fields of an object, and two
members of the variable that stands for it. -/

namespace IndexQuery.FlatMap

open Steps PassM

/-- The fields of the object that the selector of a flat map in canonical form makes. -/
def selectedFields? {Label : Type} : Expr Label → Option (List (String × Expr Label))
  | .operation _ .canonicalFlatMap _ [_, _, .operation _ .lambda _ [_, .factory _ _ fields]] =>
    fields.mapM Expr.field?
  | _ => none

/-- The canonical form with the pair of two variables selects both under their capitalised names. -/
theorem selectedFields?_canonical (type : ValueType) (flatMap : FlatMap NodeId)
    (element partner : Path) (next next' : NodeId) :
    selectedFields? (canonicalNode type flatMap (pairNode element partner next) next') =
      some [(Text.capitalize element.name, .path next element),
        (Text.capitalize partner.name, .path (next + 1) partner)] := rfl

/-- A flat map with a lone variable can be normalized only if its source and its body can, and then it is
put into canonical form with the pair of its variables, which are registered behind all others. -/
theorem Maps.run_pair {node source body result : Node} {type : ValueType} {element partner : Segment}
    {label : NodeId} {context after : Context}
    (alone : Maps node type source (.root element) body (.path label (.root partner)))
    (elementOpen : LeavesOpen source body context (.root element))
    (partnerOpen : LeavesOpen source body context (.root partner))
    (ran : run (normalize node) context = (.ok result, after)) :
    ∃ (flatMap : FlatMap NodeId) (formed : Context),
      result = canonicalNode type flatMap (pairNode (.root element) (.root partner) formed.nextNode)
        (formed.nextNode + 9) ∧
      after.substitutions = formed.substitutions ++
        [(.root element, .path (formed.nextNode + 7) (formed.plain.member (.root element))),
          (.root partner, .path (formed.nextNode + 8) (formed.plain.member (.root partner)))] := by
  -- The run has succeeded, so both the source and the body have been normalized.
  rcases sourceRan : run (normalize source) { context with replaced := false } with
    ⟨fault | newSource, between⟩
  · rw [alone.run_source_error sourceRan] at ran
    cases ran
  rcases bodyRan : run (normalize body) { between with
      replaced := (between.replacement? (.root element)).isSome } with ⟨fault | newBody, inner⟩
  · rw [alone.run_body_error sourceRan bodyRan] at ran
    cases ran
  -- Neither variable has been registered on the way, so both lambdas still bind roots.
  have elementFree := elementOpen.of_runs sourceRan bodyRan
  have partnerFree := partnerOpen.of_runs sourceRan bodyRan
  obtain ⟨args, taken, -, formedRan⟩ := alone.run_ok sourceRan bodyRan elementFree (.root partnerFree)
  rw [formedRan, run_canonicalize_pair type _ (taken (.root partner) rfl), Prod.mk.injEq,
    Except.ok.injEq] at ran
  obtain ⟨rfl, rfl⟩ := ran
  exact ⟨_, _, rfl, by rw [List.append_assoc]; rfl⟩

/-- A flat map whose list ends in a lone variable names the two fields of its object alike exactly when
its variables differ in nothing but the spelling of an upper case, and the two members that it registers
exactly when the variables are alike but for gaps. -/
theorem pair_names_alike_iff {node source body result : Node} {type elementType partnerType : ValueType}
    {elementName partnerName : String} {label : NodeId} {context after : Context}
    (alone : Maps node type source (.ofVariable elementName elementType) body
      (.path label (.ofVariable partnerName partnerType)))
    (elementOpen : LeavesOpen source body context (.ofVariable elementName elementType))
    (partnerOpen : LeavesOpen source body context (.ofVariable partnerName partnerType))
    (elementNamed : elementName ≠ "") (partnerNamed : partnerName ≠ "")
    (ran : Pass.normalizeFlatMaps.runIn node context = (.ok result, after)) :
    ∃ elementField partnerField first second,
      selectedFields? result =
        some [(elementField, .path first (.ofVariable elementName elementType)),
          (partnerField, .path second (.ofVariable partnerName partnerType))] ∧
      (elementField = partnerField ↔ Text.Recased elementName.toList partnerName.toList) ∧
    ∃ earlier transient elementMember partnerMember third fourth,
      after.substitutions = earlier ++
        [(.ofVariable elementName elementType,
            .path third (.property transient elementMember elementType)),
          (.ofVariable partnerName partnerType,
            .path fourth (.property transient partnerMember partnerType))] ∧
      (elementMember = partnerMember ↔
        Text.AlikeButGaps elementName.toList partnerName.toList) := by
  obtain ⟨flatMap, formed, rfl, registered⟩ := alone.run_pair elementOpen partnerOpen ran
  refine ⟨Text.capitalize elementName, Text.capitalize partnerName, formed.nextNode,
    formed.nextNode + 1, selectedFields?_canonical .., Text.capitalize_eq_iff elementNamed partnerNamed,
    formed.substitutions, formed.plain.transient, Text.identifier elementName,
    Text.identifier partnerName, formed.nextNode + 7, formed.nextNode + 8, registered, ?_⟩
  -- A variable is written by its name alone.
  exact Text.identifier_eq_iff elementName partnerName

/-- The families of a collection with their children, under the given names. -/
def namedPairs (elementName partnerName : String) : Node :=
  let family := Path.ofVariable elementName (.object "Family")
  .operation 8 .flatMap .collection
    [.path 1 (.ofVariable "docs" .collection),
      .operation 7 .list .expression
        [.operation 4 .lambda .expression
            [.path 2 family, .path 3 (family.property "Children" .collection)],
          .path 6 (.ofVariable partnerName (.object "Person"))]]

/-- The variables `ß` and `sS` give two fields of one name, since the second one goes on with the rest of
the upper case of the first one, but two members of different names. -/
theorem pair_names_alike_iff_sharpS :
    ∃ result after, Pass.normalizeFlatMaps.runIn (namedPairs "ß" "sS") (Context.start {} 9) =
        (.ok result, after) ∧
      (∃ field first second, selectedFields? result = some [(field, first), (field, second)]) ∧
      ∃ earlier first second member member',
        after.substitutions.map Prod.snd = earlier ++ [.path first member, .path second member'] ∧
          member.name ≠ member'.name := by
  let source : Node := .path 1 (.ofVariable "docs" .collection)
  let body : Node := .path 3 ((Path.ofVariable "ß" (.object "Family")).property "Children" .collection)
  have alone : Maps (namedPairs "ß" "sS") .collection source (.ofVariable "ß" (.object "Family")) body
      (.path 6 (.ofVariable "sS" (.object "Person"))) := ⟨8, 7, 4, 2, .expression, .expression, rfl⟩
  have isOpen (path : Path) : LeavesOpen source body (Context.start {} 9) path := by
    rintro _ _ _ _ ⟨⟩ ⟨⟩ entry registered
    exact absurd registered (by simp [Context.start])
  have succeeds : (Pass.normalizeFlatMaps.runIn (namedPairs "ß" "sS")
      (Context.start {} 9)).1.toOption.any (fun _ => true) = true := by decide +kernel
  -- Capitalized, the two names are spelled alike, although their members are told apart.
  have upper : Text.upperCase 'ß' = Text.upperCase 's' ++ ['S'] := by decide +kernel
  have recased : Text.Recased "ß".toList "sS".toList := .spelled upper (by simp)
  have unlike : ¬ Text.AlikeButGaps "ß".toList "sS".toList := fun alike =>
    absurd ((Text.identifier_eq_iff "ß" "sS").mpr alike) (by decide +kernel)
  obtain ⟨result, done, -⟩ := exists_of_any succeeds
  obtain ⟨_, _, first, second, selected, fields, earlier, transient, member, member', third, fourth,
    registered, members⟩ :=
    pair_names_alike_iff alone (isOpen _) (isOpen _) (by decide) (by decide) (Prod.ext done rfl)
  obtain rfl := fields.mpr recased
  refine ⟨result, _, Prod.ext done rfl, ⟨_, _, _, selected⟩, earlier.map Prod.snd, third, fourth,
    transient.property member (.object "Family"), transient.property member' (.object "Person"), ?_,
    fun same => unlike (members.mp same)⟩
  -- The two entries at the end of the table are those of the pair.
  rw [registered, List.map_append]
  rfl

/-- Variables of different names can give two fields of one name, and two members of one name: `x` and
`X`, and an `a` under an acute and under a grave accent of its own. -/
theorem pair_names_not_apart :
    (∃ result, (Pass.normalizeFlatMaps.run {} (namedPairs "x" "X") 9).1 = .ok result ∧
        (selectedFields? result).map (·.map Prod.fst) = some ["X", "X"]) ∧
      (Pass.normalizeFlatMaps.run {} (namedPairs "a\u0301" "a\u0300") 9).1.toOption.isSome = true ∧
        (Pass.normalizeFlatMaps.run {} (namedPairs "a\u0301" "a\u0300") 9).2.substitutions.map
          (fun entry => entry.2.path?.map Path.name) = [some "a_", some "a_"] := by
  -- One pair agrees in the names of its fields, and the other one in those of its members.
  have fields : (Pass.normalizeFlatMaps.run {} (namedPairs "x" "X") 9).1.toOption.any (fun result =>
      (selectedFields? result).map (·.map Prod.fst) = some ["X", "X"]) = true := by decide +kernel
  obtain ⟨result, done, same⟩ := exists_of_any fields
  exact ⟨⟨result, done, of_decide_eq_true same⟩, by decide +kernel, by decide +kernel⟩

end IndexQuery.FlatMap
