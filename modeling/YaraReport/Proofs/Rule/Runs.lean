/-
This file proves that the strings of a rule are the runs of its matches. Matches
that are pushed one by one are all kept in order, neighbours of one string share
an entry, and matches of one string with others between them do not. No other
list of entries has these properties, so pushing more matches is putting two
lists of runs together at their seam.
-/

import YaraReport.Proofs.Scan.Listing

namespace YaraReport

namespace StringMatch

/-- The matches of runs in order, each with the identifier of its string. -/
def entries (runs : List StringMatch) : List (String × Match) :=
  runs.flatMap fun run => run.occurrences.map fun occurrence => (run.identifier, occurrence)

/-- Runs that hold the given matches in order, where no run is empty and neighbours are of
different strings. -/
structure Groups (runs : List StringMatch) (found : List (String × Match)) : Prop where
  entries : entries runs = found
  nonempty : ∀ run ∈ runs, run.occurrences ≠ []
  neighbours : runs.IsChain fun former latter => former.identifier ≠ latter.identifier

/-- Two lists of runs in a row. Where the last run of the one and the first of the other are of
one string, they are one run. -/
def joined (former latter : List StringMatch) : List StringMatch :=
  match former.getLast?, latter with
  | some last, first :: others =>
    if last.identifier = first.identifier then
      former.dropLast ++ ⟨last.identifier, last.occurrences ++ first.occurrences⟩ :: others
    else former ++ latter
  | _, _ => former ++ latter

/-! ### The seam of two lists of runs -/

variable {former latter : List StringMatch} {before after : List (String × Match)}

theorem entries_append (former latter : List StringMatch) :
    entries (former ++ latter) = entries former ++ entries latter :=
  List.flatMap_append

theorem entries_cons (identifier : String) (occurrences : List Match)
    (others : List StringMatch) :
    entries (⟨identifier, occurrences⟩ :: others) =
      (occurrences.map fun occurrence => (identifier, occurrence)) ++ entries others := rfl

theorem joined_nil (runs : List StringMatch) : joined runs [] = runs := by
  unfold joined
  split
  · simp_all
  · exact List.append_nil runs

/-- Runs of one string that meet at the seam are one run. -/
theorem joined_same (front others : List StringMatch) (identifier : String)
    (occurrences more : List Match) :
    joined (front ++ [⟨identifier, occurrences⟩]) (⟨identifier, more⟩ :: others) =
      front ++ ⟨identifier, occurrences ++ more⟩ :: others := by
  simp [joined]

/-- Runs of different strings that meet at the seam stay apart. -/
theorem joined_apart (front others : List StringMatch) {last first : StringMatch}
    (apart : last.identifier ≠ first.identifier) :
    joined (front ++ [last]) (first :: others) = front ++ [last] ++ first :: others := by
  simp [joined, apart]

/-- The runs of two lists of matches, joined, are the runs of both lists in a row. -/
theorem Groups.joined (first : Groups former before) (second : Groups latter after) :
    Groups (joined former latter) (before ++ after) := by
  rcases List.eq_nil_or_concat' former with rfl | ⟨front, ⟨name, occurrences⟩, rfl⟩
  · obtain rfl : [] = before := first.entries
    exact second
  rcases latter with _ | ⟨⟨next, more⟩, others⟩
  · obtain rfl : [] = after := second.entries
    rw [joined_nil, List.append_nil]
    exact first
  have whole : before ++ after = StringMatch.entries (front ++ [⟨name, occurrences⟩]) ++
      StringMatch.entries (⟨next, more⟩ :: others) := by
    rw [first.entries, second.entries]
  have firstRuns := List.forall_mem_append.mp first.nonempty
  have secondRuns := List.forall_mem_cons.mp second.nonempty
  by_cases same : name = next
  · subst same
    rw [joined_same, whole]
    refine ⟨?_, ?_, ?_⟩
    · simp only [entries_append, entries_cons, List.map_append, List.append_assoc]
      rfl
    · intro run member
      rcases List.mem_append.mp member with inside | member
      · exact firstRuns.1 run inside
      rcases List.mem_cons.mp member with rfl | later
      · exact List.append_ne_nil_of_right_ne_nil occurrences secondRuns.1
      · exact secondRuns.2 run later
    · -- Whether runs are neighbours of different strings is seen from their identifiers alone.
      have former := (List.isChain_map identifier).mpr first.neighbours
      have latter := (List.isChain_map identifier).mpr second.neighbours
      rw [← List.isChain_map identifier (R := (· ≠ ·))]
      rw [List.map_append, List.map_cons] at *
      exact List.isChain_split.mpr ⟨former, latter⟩
  · rw [joined_apart front others same, whole]
    refine ⟨entries_append _ _, List.forall_mem_append.mpr ⟨first.nonempty, second.nonempty⟩, ?_⟩
    refine List.isChain_append.mpr ⟨first.neighbours, second.neighbours, ?_⟩
    intro last isLast head isHead
    rw [List.getLast?_append, List.getLast?_singleton] at isLast
    cases isLast
    cases isHead
    exact same

/-! ### Matches one by one -/

/-- Adding a match is joining the runs with a run of that match alone. -/
theorem add_eq_joined (identifier : String) (occurrence : Match) (runs : List StringMatch) :
    add identifier occurrence runs = joined runs [⟨identifier, [occurrence]⟩] := by
  rcases List.eq_nil_or_concat' runs with rfl | ⟨front, ⟨name, occurrences⟩, rfl⟩
  · rfl
  · by_cases same : name = identifier
    · subst same
      rw [add_same, joined_same]
    · rw [joined_apart front [] same]
      refine add_new _ _ fun last isLast => ?_
      obtain rfl : ⟨name, occurrences⟩ = last := by simpa using isLast
      exact same

/-- One more match leaves runs of all matches so far. -/
theorem Groups.add (groups : Groups former before) (identifier : String) (occurrence : Match) :
    Groups (add identifier occurrence former) (before ++ [(identifier, occurrence)]) := by
  rw [add_eq_joined]
  refine groups.joined ⟨rfl, ?_, List.isChain_singleton _⟩
  simp

/-- Matches that are added one by one leave runs of all matches. -/
theorem Groups.foldl_add (groups : Groups former before) (found : List (String × Match)) :
    Groups (found.foldl (fun runs entry => StringMatch.add entry.1 entry.2 runs) former)
      (before ++ found) := by
  induction found generalizing former before with
  | nil => simpa using groups
  | cons entry found inductionHypothesis =>
    rw [List.foldl_cons, List.append_cons]
    exact inductionHypothesis (groups.add entry.1 entry.2)

/-- Some matches have one list of runs, which adding them one by one makes. -/
theorem foldl_add_eq_iff (found : List (String × Match)) (runs : List StringMatch) :
    found.foldl (fun runs entry => add entry.1 entry.2 runs) [] = runs ↔ Groups runs found := by
  constructor
  · rintro rfl
    exact Groups.foldl_add ⟨rfl, by simp, List.isChain_nil⟩ found
  · intro groups
    rw [← groups.entries]
    exact StringMatch.foldl_add [] groups.nonempty groups.neighbours

end StringMatch

namespace Rule

/-- A rule after some matches, each with the identifier of its string. -/
def pushAll (rule : Rule) (found : List (String × Match)) : Rule :=
  found.foldl (fun rule entry => rule.pushMatch entry.1 entry.2) rule

/-- Pushed matches change nothing but the strings of a rule. -/
theorem pushAll_eq (rule : Rule) (found : List (String × Match)) :
    rule.pushAll found =
      { rule with strings :=
          found.foldl (fun runs entry => StringMatch.add entry.1 entry.2 runs) rule.strings } :=
  foldl_pushMatch_eq rule found

/-- The matches of a rule that had none before are those that were pushed, in order. -/
theorem found_pushAll {rule : Rule} (bare : rule.strings = []) (found : List (String × Match)) :
    (rule.pushAll found).found = found := by
  have groups := (StringMatch.foldl_add_eq_iff found _).mp rfl
  rw [pushAll_eq, bare]
  exact groups.entries

/-- The strings of a new rule are the only runs of the matches pushed onto it. More matches make
runs of their own, joined to those before, and nothing else of a rule ever changes. -/
theorem pushes_group (identifier : String) (former latter : List (String × Match)) :
    (∀ rule : Rule, rule.pushAll former = { rule with strings := (rule.pushAll former).strings }) ∧
      (∀ runs, ((named identifier).pushAll former).strings = runs ↔
        StringMatch.Groups runs former) ∧
      (((named identifier).pushAll former).pushAll latter).strings =
        StringMatch.joined ((named identifier).pushAll former).strings
          ((named identifier).pushAll latter).strings := by
  have strings (found : List (String × Match)) (runs : List StringMatch) :
      ((named identifier).pushAll found).strings = runs ↔ StringMatch.Groups runs found := by
    rw [pushAll_eq]
    exact StringMatch.foldl_add_eq_iff found runs
  refine ⟨fun rule => by rw [pushAll_eq], strings former, ?_⟩
  have whole : ((named identifier).pushAll former).pushAll latter =
      (named identifier).pushAll (former ++ latter) := List.foldl_append.symm
  rw [whole, strings]
  exact ((strings former _).mp rfl).joined ((strings latter _).mp rfl)

/-- Matches of one string on both sides of the seam share an entry, others between them part
the entries. -/
example : (((named "r").pushAll [("$a", ⟨1, "x"⟩), ("$b", ⟨2, "y"⟩), ("$a", ⟨3, "x"⟩)]).pushAll
      [("$a", ⟨4, "z"⟩)]).strings =
    [⟨"$a", [⟨1, "x"⟩]⟩, ⟨"$b", [⟨2, "y"⟩]⟩, ⟨"$a", [⟨3, "x"⟩, ⟨4, "z"⟩]⟩] := by
  decide

end Rule

end YaraReport
