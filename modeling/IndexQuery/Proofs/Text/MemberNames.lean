import IndexQuery.Text.Naming

/-! Member names: which characters they consist of, and which paths they tell apart. -/

namespace IndexQuery

namespace Text

/-- Letters and numbers can stand in a member name. -/
theorem isNameCharacter_of_letter {c : Char} (letter : isLetterOrNumber c = true) :
    isNameCharacter c = true := by
  simp [isNameCharacter, letter]

/-- The underscore is neither a letter nor a number. -/
theorem isLetterOrNumber_underscore : isLetterOrNumber '_' = false := by decide +kernel

/-- The point between two segments is a separator. -/
theorem isNameCharacter_point : isNameCharacter '.' = false := by decide +kernel

/-- Characters of names stay as they are, and end the run before them. -/
theorem joinRuns_append {text : List Char} (names : ∀ c ∈ text, isNameCharacter c = true)
    (nonempty : text ≠ []) (insideRun : Bool) (rest : List Char) :
    joinRuns insideRun (text ++ rest) = text ++ joinRuns false rest := by
  induction text generalizing insideRun with
  | nil => exact absurd rfl nonempty
  | cons c text ih =>
    obtain ⟨name, names⟩ := List.forall_mem_cons.mp names
    rw [List.cons_append, joinRuns, if_pos name]
    -- Only the first character can stand behind a separator.
    cases text with
    | nil => rfl
    | cons d text => rw [ih names (List.cons_ne_nil d text) false]; rfl

/-- A text without separators stays as it is. -/
theorem joinRuns_of_names {text : List Char} (names : ∀ c ∈ text, isNameCharacter c = true)
    (insideRun : Bool) : joinRuns insideRun text = text := by
  -- Without a separator there is no run to join.
  by_cases empty : text = []
  · subst empty
    rfl
  · simpa [joinRuns] using joinRuns_append names empty insideRun []

/-- Whatever is left of a text, and the underscores put in, can stand in a name. -/
theorem isNameCharacter_of_mem_joinRuns {insideRun : Bool} {text : List Char} {c : Char}
    (kept : c ∈ joinRuns insideRun text) : isNameCharacter c = true := by
  induction text generalizing insideRun with
  | nil => cases kept
  | cons first rest ih =>
    rw [joinRuns] at kept
    -- A name character is copied, and a separator leaves an underscore or nothing.
    split at kept
    · rename_i name
      obtain rfl | kept := List.mem_cons.mp kept
      · exact name
      · exact ih kept
    · split at kept
      · exact ih kept
      · obtain rfl | kept := List.mem_cons.mp kept
        · rfl
        · exact ih kept

/-- Names with points between them come out with underscores between them. -/
theorem joinRuns_intercalate {parts : List (List Char)}
    (named : ∀ part ∈ parts, part ≠ [] ∧ ∀ c ∈ part, isNameCharacter c = true) (insideRun : Bool) :
    joinRuns insideRun (['.'].intercalate parts) = ['_'].intercalate parts := by
  induction parts generalizing insideRun with
  | nil => rfl
  | cons first parts ih =>
    obtain ⟨⟨nonempty, names⟩, named⟩ := List.forall_mem_cons.mp named
    cases parts with
    | nil =>
      rw [List.intercalate_singleton, List.intercalate_singleton]
      exact joinRuns_of_names names insideRun
    | cons second parts =>
      rw [List.intercalate_cons_cons, List.intercalate_cons_cons, List.append_assoc,
        joinRuns_append names nonempty, List.append_assoc]
      -- The point is a run of its own, since both of its neighbours are characters of names.
      have point : joinRuns false (['.'] ++ ['.'].intercalate (second :: parts)) =
          '_' :: joinRuns true (['.'].intercalate (second :: parts)) := by
        rw [List.singleton_append, joinRuns, if_neg (by simp [isNameCharacter_point]), if_neg (by simp)]
      rw [point, ih named]
      rfl

end Text

namespace Path

/-- The segments, outermost first. -/
def segments : Path → List Segment
  | .root segment => [segment]
  | .member parent segment => parent.segments ++ [segment]

/-- The names of the segments, outermost first. -/
def names (path : Path) : List String := path.segments.map Segment.name

/-- Whether every segment is a variable or a member, named by letters and numbers. -/
def Lettered (path : Path) : Prop :=
  ∀ segment ∈ path.segments, segment.kind ≠ .any ∧ segment.name ≠ "" ∧
    ∀ c ∈ segment.name.toList, Text.isLetterOrNumber c = true

instance (path : Path) : Decidable path.Lettered :=
  decidable_of_iff (∀ segment ∈ path.segments, segment.kind ≠ .any ∧ segment.name ≠ "" ∧
    segment.name.toList.all Text.isLetterOrNumber = true) (by simp only [Lettered, List.all_eq_true])

/-- Every path has a segment. -/
theorem segments_ne_nil (path : Path) : path.segments ≠ [] := by
  cases path <;> simp [segments]

/-- The text of a path consists of the texts of its segments. -/
theorem dotted_eq_intercalate (path : Path) :
    path.dotted = ".".intercalate (path.segments.map Segment.text) := by
  -- The last segment comes behind the point that follows its parent.
  induction path with
  | root segment => rw [dotted, segments, List.map_singleton, String.intercalate_singleton]
  | member parent segment ih =>
    rw [dotted, segments, List.map_append, List.map_singleton,
      String.intercalate_append_of_ne_nil (by simp [segments_ne_nil]) (by simp),
      String.intercalate_singleton, ih]

/-- A segment other than a marker is written by its name. -/
theorem text_of_ne_any {segment : Segment} (kind : segment.kind ≠ .any) :
    segment.text = segment.name := by
  -- Only a marker is written in another way.
  rcases segment with ⟨name, _ | _ | _, type⟩
  · rfl
  · rfl
  · exact absurd rfl kind

/-- The names in a lettered path are texts of letters and numbers. -/
theorem Lettered.name {path : Path} (lettered : path.Lettered) :
    ∀ name ∈ path.names, name ≠ "" ∧ ∀ c ∈ name.toList, Text.isLetterOrNumber c = true := by
  -- Each name is that of a segment.
  intro name among
  obtain ⟨segment, member, rfl⟩ := List.mem_map.mp among
  exact (lettered segment member).2

/-- The member name of a lettered path is made of the names of its segments. -/
theorem Lettered.memberName {path : Path} (lettered : path.Lettered) :
    path.memberName.toList = ['_'].intercalate (path.names.map String.toList) := by
  have texts : path.segments.map Segment.text = path.names :=
    List.map_congr_left fun segment among => text_of_ne_any (lettered segment among).1
  -- Between the points stand names without a separator, so each point is a gap of its own.
  have named : ∀ part ∈ path.names.map String.toList,
      part ≠ [] ∧ ∀ c ∈ part, Text.isNameCharacter c = true := by
    intro part among
    obtain ⟨name, member, rfl⟩ := List.mem_map.mp among
    obtain ⟨nonempty, letters⟩ := lettered.name name member
    exact ⟨by simpa using nonempty, fun c within =>
      Text.isNameCharacter_of_letter (letters c within)⟩
  rw [Path.memberName, Text.identifier, String.toList_ofList, dotted_eq_intercalate, texts,
    String.toList_intercalate]
  exact Text.joinRuns_intercalate named false

/-- No name in a lettered path has an underscore. -/
theorem Lettered.underscore_notMem {path : Path} (lettered : path.Lettered) :
    ∀ part ∈ path.names.map String.toList, '_' ∉ part := by
  -- An underscore is neither a letter nor a number.
  intro part among within
  obtain ⟨name, member, rfl⟩ := List.mem_map.mp among
  have letter := (lettered.name name member).2 '_' within
  rw [Text.isLetterOrNumber_underscore] at letter
  cases letter

/-- The names in a lettered path can be read off its member name. -/
theorem Lettered.names_eq {path : Path} (lettered : path.Lettered) :
    path.names.map String.toList = path.memberName.toList.splitOn '_' := by
  -- No name has an underscore in it, so splitting takes the joined names apart again.
  rw [lettered.memberName, List.splitOn_intercalate '_' lettered.underscore_notMem]
  simp [names, segments_ne_nil]

/-- Paths whose segments are named by letters and numbers have the same member name only if their
segments have the same names. Whatever a path is, its member name consists of letters, numbers and
underscores, so that joining runs of separators again does not change it. -/
theorem memberName_distinguishes :
    (∀ left right : Path, left.Lettered → right.Lettered →
      left.memberName = right.memberName → left.names = right.names) ∧
    ∀ path : Path, (∀ c ∈ path.memberName.toList, c = '_' ∨ Text.isLetterOrNumber c = true) ∧
      Text.identifier path.memberName = path.memberName := by
  refine ⟨fun left right lettered lettered' same => ?_, fun path => ?_⟩
  -- The names are read back from the member name, since none of them has an underscore.
  · have texts : left.names.map String.toList = right.names.map String.toList := by
      rw [lettered.names_eq, lettered'.names_eq, same]
    exact (List.map_inj_right fun _ _ => String.toList_inj.mp).mp texts
  -- What has been joined has no separators left.
  · have names : ∀ c ∈ path.memberName.toList, Text.isNameCharacter c = true := by
      intro c within
      rw [memberName, Text.identifier, String.toList_ofList] at within
      exact Text.isNameCharacter_of_mem_joinRuns within
    refine ⟨fun c within => by simpa [Text.isNameCharacter] using names c within, ?_⟩
    rw [Text.identifier, Text.joinRuns_of_names names, String.ofList_toList]

/-- The street of a person and a property called so, of other types: one member name, and the same
names. -/
theorem memberName_distinguishes_street :
    let street := (Path.ofVariable "ä" (.object "Person")).property "Straße" .string
    let namesake := (Path.root ⟨"ä", .property, .collection⟩).property "Straße" .number
    street ≠ namesake ∧ street.Lettered ∧ namesake.Lettered ∧
      street.memberName = namesake.memberName ∧ street.names = namesake.names := by
  -- The two paths differ in types and kinds only, of which the member name says nothing.
  intro street namesake
  have lettered : street.Lettered := by decide +kernel
  have lettered' : namesake.Lettered := by decide +kernel
  have same : street.memberName = namesake.memberName := by decide +kernel
  exact ⟨by decide, lettered, lettered', same,
    memberName_distinguishes.1 street namesake lettered lettered' same⟩

end Path

end IndexQuery
