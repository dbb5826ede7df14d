/-
This file proves what a path means when files come and go. To follow a path takes
only directories, so a change to plain files does not matter to the ways that lead
elsewhere. Where a path is written to, it leads to the bytes that were written, and
all other places stay as they are (`write_of_leads`, `Writes.read`).
-/

import YaraReport.FileTree

namespace YaraReport.FileTree

variable {tree first second after : FileTree} {place other directory : Place} {path : String}

/-! ### Entries -/

theorem lookup_filter_of_ne {entries : List (Place × Node)} (different : other ≠ place) :
    (entries.filter fun entry => entry.1 ≠ place).lookup other = entries.lookup other := by
  induction entries with
  | nil => rfl
  | cons entry entries inductionHypothesis =>
    rw [List.filter_cons]
    split
    · rw [List.lookup_cons, List.lookup_cons, inductionHypothesis]
    · rename_i same
      obtain rfl : entry.1 = place := by simpa using same
      rw [inductionHypothesis, List.lookup_cons, beq_false_of_ne different]

theorem lookup_filter_self (entries : List (Place × Node)) :
    (entries.filter fun entry => entry.1 ≠ place).lookup place = none := by
  rw [List.lookup_eq_none_iff]
  intro entry member
  have different := (List.mem_filter.mp member).2
  exact bne_iff_ne.mpr (Ne.symm (of_decide_eq_true different))

theorem node?_set_of_ne (node : Node) (different : other ≠ place) :
    (tree.set place node).node? other = tree.node? other := by
  unfold node? set
  rw [List.lookup_cons, beq_false_of_ne different, lookup_filter_of_ne different]

theorem node?_erase_of_ne (different : other ≠ place) :
    (tree.erase place).node? other = tree.node? other := by
  unfold node? erase
  rw [lookup_filter_of_ne different]

theorem node?_erase (named : place ≠ []) : (tree.erase place).node? place = none := by
  unfold node? erase
  rw [if_neg named, lookup_filter_self]

theorem ne_nil_of_not_directory (plain : tree.node? place ≠ some .directory) : place ≠ [] := by
  rintro rfl
  exact plain rfl

/-! ### Ways -/

/-- What is a directory in one tree is one in another. -/
def Keeps (first second : FileTree) : Prop :=
  ∀ place, first.node? place = some .directory → second.node? place = some .directory

theorem follow_of_keeps (keeps : Keeps first second) {start : Place} {segments : List String}
    (follows : first.follow start segments = .ok place) :
    second.follow start segments = .ok place := by
  induction segments generalizing start with
  | nil => exact follows
  | cons segment rest inductionHypothesis =>
    unfold follow at follows ⊢
    split at follows
    · cases follows
    · cases follows
    · rename_i stands
      rw [keeps _ stands]
      dsimp only
      split at follows
      · cases follows
      · rename_i short
        rw [if_neg short]
        exact inductionHypothesis follows

/-- A way that ends with a slash ends in a directory. -/
theorem directory_of_follow {start : Place} {segments : List String}
    (follows : tree.follow start (segments ++ [""]) = .ok place) :
    tree.node? place = some .directory := by
  induction segments generalizing start with
  | nil =>
    rw [List.nil_append] at follows
    unfold follow at follows
    split at follows
    · cases follows
    · cases follows
    · rename_i stands
      split at follows
      · cases follows
      · cases follows
        exact stands
  | cons segment rest inductionHypothesis =>
    rw [List.cons_append] at follows
    unfold follow at follows
    split at follows
    · cases follows
    · cases follows
    · split at follows
      · cases follows
      · exact inductionHypothesis follows

theorem writtenWay_eq {segments : List String} (named : segments.getLast? ≠ some "") :
    writtenWay segments = segments := by
  have kept : segments.reverse.dropWhile (· = "") = segments.reverse := by
    rw [List.getLast?_eq_head?_reverse] at named
    cases reversed : segments.reverse with
    | nil => rfl
    | cons last rest =>
      rw [reversed, List.head?_cons, ne_eq, Option.some.injEq] at named
      rw [List.dropWhile_cons_of_neg (by simpa using named)]
  rw [writtenWay, if_neg named, kept, List.reverse_reverse]

/-- Where a path leads that can be written to. -/
structure Leads (tree : FileTree) (directory : Place) (path : String) (place : Place) : Prop where
  accepted : refusal? path = none
  named : (Path.segments path).getLast? ≠ some ""
  follows : tree.follow (origin directory path) (Path.segments path) = .ok place

theorem target_eq_ok_iff :
    tree.target directory path = .ok place ↔
      tree.Leads directory path place ∧ tree.node? place ≠ some .directory := by
  unfold target
  dsimp only
  constructor
  · intro found
    split at found
    · cases found
    · rename_i accepted
      split at found
      · cases found
      · rename_i follows
        split at found
        · cases found
        · rename_i plain
          cases found
          rw [not_or] at plain
          rw [writtenWay_eq plain.1] at follows
          exact ⟨⟨accepted, plain.1, follows⟩, plain.2⟩
  · rintro ⟨⟨accepted, named, follows⟩, plain⟩
    rw [accepted, writtenWay_eq named, follows]
    dsimp only
    rw [if_neg (not_or.mpr ⟨named, plain⟩)]

/-- Where there is room for a new file, a path leads that can be written to. -/
theorem vacancy_eq_ok_iff :
    tree.vacancy directory path = .ok place ↔
      tree.Leads directory path place ∧ tree.node? place = none := by
  unfold vacancy
  constructor
  · intro found
    split at found
    · cases found
    · rename_i accepted
      split at found
      · cases found
      · rename_i follows
        split at found
        · cases found
        · rename_i vacant
          cases found
          have absent := Option.not_isSome_iff_eq_none.mp vacant
          refine ⟨⟨accepted, fun slash => ?_, follows⟩, absent⟩
          obtain ⟨front, whole⟩ := List.getLast?_eq_some_iff.mp slash
          rw [whole] at follows
          cases absent.symm.trans (directory_of_follow follows)
  · rintro ⟨⟨accepted, -, follows⟩, absent⟩
    rw [accepted, follows]
    dsimp only
    rw [absent]
    rfl

theorem Leads.of_keeps (leads : first.Leads directory path place) (keeps : Keeps first second) :
    second.Leads directory path place :=
  ⟨leads.accepted, leads.named, follow_of_keeps keeps leads.follows⟩

theorem refusal?_eq_none_iff :
    refusal? path = none ↔
      SystemError.holdsZero path = false ∧ path ≠ "" ∧ path.utf8ByteSize ≤ pathLimit := by
  unfold refusal?
  rw [← Bool.not_eq_true, ← Nat.not_lt]
  by_cases zero : SystemError.holdsZero path = true
  · rw [if_pos zero]
    exact iff_of_false nofun fun clean => clean.1 zero
  · rw [if_neg zero, and_iff_right zero]
    by_cases empty : path = ""
    · rw [if_pos empty]
      exact iff_of_false nofun fun named => named.1 empty
    · rw [if_neg empty, and_iff_right empty]
      by_cases long : pathLimit < path.utf8ByteSize
      · rw [if_pos long]
        exact iff_of_false nofun fun short => short long
      · rw [if_neg long]
        exact iff_of_true rfl long

/-- The file or directory that a path leads to. -/
theorem find_eq_ok_iff {node : Node} :
    tree.find directory path = .ok (place, node) ↔
      refusal? path = none ∧ tree.follow (origin directory path) (Path.segments path) = .ok place ∧
        tree.node? place = some node := by
  unfold FileTree.find
  constructor
  · intro found
    split at found
    · cases found
    · rename_i accepted
      refine ⟨accepted, ?_⟩
      unfold resolve at found
      split at found
      · cases found
      · split at found
        · cases found
        · split at found
          · cases found
          · rename_i follows
            split at found
            · rename_i stands
              cases found
              exact ⟨follows, stands⟩
            · cases found
  · rintro ⟨accepted, follows, stands⟩
    obtain ⟨clean, nonempty, -⟩ := refusal?_eq_none_iff.mp accepted
    rw [accepted]
    dsimp only
    rw [resolve, if_neg (Bool.eq_false_iff.mp clean), if_neg nonempty, follows]
    dsimp only
    rw [stands]

theorem isFile_iff :
    tree.isFile directory path = true ↔
      ∃ place file, tree.find directory path = .ok (place, .file file) := by
  unfold isFile
  split
  · rename_i place file found
    exact iff_of_true rfl ⟨place, file, found⟩
  · rename_i other
    exact iff_of_false Bool.false_ne_true fun ⟨place, file, found⟩ => other place file found

theorem Leads.find (leads : tree.Leads directory path place) {node : Node}
    (stands : tree.node? place = some node) : tree.find directory path = .ok (place, node) :=
  find_eq_ok_iff.mpr ⟨leads.accepted, leads.follows, stands⟩

/-! ### Writing -/

/-- Bytes stand in a plain file at a place of a tree that is otherwise as before. -/
structure Writes (before after : FileTree) (place : Place) (content : List UInt8) : Prop where
  plain : before.node? place ≠ some .directory
  stands : ∃ runnable, after.node? place = some (.file ⟨content, runnable⟩)
  others : ∀ other, other ≠ place → after.node? other = before.node? other

theorem Writes.keeps {content : List UInt8} (writes : Writes tree after place content) :
    Keeps tree after := by
  intro other stands
  by_cases same : other = place
  · exact absurd (same ▸ stands) writes.plain
  · rw [writes.others other same, stands]

theorem Writes.keeps_back {content : List UInt8} (writes : Writes tree after place content) :
    Keeps after tree := by
  intro other stands
  obtain ⟨runnable, file⟩ := writes.stands
  by_cases same : other = place
  · cases (same ▸ stands).symm.trans file
  · rw [← writes.others other same, stands]

theorem Writes.trans {former content : List UInt8} {middle : FileTree}
    (earlier : Writes tree middle place former) (later : Writes middle after place content) :
    Writes tree after place content :=
  ⟨earlier.plain, later.stands, fun other different =>
    (later.others other different).trans (earlier.others other different)⟩

theorem writes_set {content : List UInt8} {runnable : Bool}
    (plain : tree.node? place ≠ some .directory) :
    Writes tree (tree.set place (.file ⟨content, runnable⟩)) place content :=
  ⟨plain, ⟨runnable, node?_set tree place _ (ne_nil_of_not_directory plain)⟩,
    fun _ different => node?_set_of_ne _ different⟩

theorem write_of_leads (leads : tree.Leads directory path place)
    (plain : tree.node? place ≠ some .directory) (content : List UInt8) :
    ∃ after, tree.write directory path content = .ok after ∧ Writes tree after place content := by
  unfold write
  rw [target_eq_ok_iff.mpr ⟨leads, plain⟩]
  dsimp only
  split
  · exact ⟨_, rfl, writes_set plain⟩
  · rename_i stands
    exact absurd stands plain
  · exact ⟨_, rfl, writes_set plain⟩

/-- A file is read at any path that leads to it. -/
theorem Leads.read (leads : tree.Leads directory path place) {file : File}
    (stands : tree.node? place = some (.file file)) :
    tree.read directory path = .ok file.content := by
  rw [FileTree.read, leads.find stands]

/-! ### Trees that do not differ -/

/-- The same stands at every place of two trees. -/
def Agrees (first second : FileTree) : Prop := ∀ place, first.node? place = second.node? place

theorem Agrees.follow (agrees : first.Agrees second) (start : Place) (segments : List String) :
    first.follow start segments = second.follow start segments := by
  induction segments generalizing start with
  | nil => rfl
  | cons segment rest inductionHypothesis =>
    unfold FileTree.follow
    rw [agrees start]
    split
    · rfl
    · rfl
    · split
      · rfl
      · exact inductionHypothesis _

/-- Erasing a new file leaves the tree as it was. -/
theorem Writes.agrees_erase {content : List UInt8} (writes : Writes tree after place content)
    (fresh : tree.node? place = none) : (after.erase place).Agrees tree := by
  intro other
  by_cases same : other = place
  · rw [same, node?_erase (ne_nil_of_not_directory writes.plain), fresh]
  · rw [node?_erase_of_ne same, writes.others other same]

theorem Writes.of_agrees {content : List UInt8} (agrees : first.Agrees second)
    (writes : Writes first after place content) : Writes second after place content :=
  ⟨agrees place ▸ writes.plain, writes.stands, fun other different =>
    (writes.others other different).trans (agrees other)⟩

/-- A new file that is moved stands where it is moved to, and nothing else has changed. -/
theorem Writes.moved {former content : List UInt8} {middle : FileTree}
    (earlier : Writes tree middle other former) (fresh : tree.node? other = none)
    (plain : tree.node? place ≠ some .directory) (runnable : Bool) :
    Writes tree ((middle.erase other).set place (.file ⟨content, runnable⟩)) place content := by
  have agrees := earlier.agrees_erase fresh
  exact (writes_set (agrees place ▸ plain)).of_agrees agrees

/-- Bytes that are written while there is a new file elsewhere stand alone once that is erased. -/
theorem Writes.erase {former content : List UInt8} {middle : FileTree}
    (earlier : Writes tree middle other former) (fresh : tree.node? other = none)
    (later : Writes middle after place content) (different : place ≠ other) :
    Writes tree (after.erase other) place content where
  plain := by
    rw [← earlier.others place different]
    exact later.plain
  stands := by
    rw [node?_erase_of_ne different]
    exact later.stands
  others := by
    intro third apart
    by_cases same : third = other
    · rw [same, node?_erase (ne_nil_of_not_directory earlier.plain), fresh]
    · rw [node?_erase_of_ne same, later.others third apart, earlier.others third same]

/-- What was written to a path is read there. -/
theorem Writes.read {content : List UInt8} (writes : Writes tree after place content)
    (leads : tree.Leads directory path place) : after.read directory path = .ok content := by
  obtain ⟨runnable, stands⟩ := writes.stands
  exact (leads.of_keeps writes.keeps).read stands

/-- A path reads the same in trees that do not differ. -/
theorem Agrees.read (agrees : first.Agrees second) (directory : Place) (path : String) :
    first.read directory path = second.read directory path := by
  have found : first.find directory path = second.find directory path := by
    unfold FileTree.find resolve
    rw [agrees.follow]
    simp only [agrees _]
  rw [FileTree.read, FileTree.read, found]

end YaraReport.FileTree
