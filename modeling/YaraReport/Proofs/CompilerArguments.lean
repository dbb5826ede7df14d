/-
This file proves that the arguments of the compiler say what its rule files were given as.
Before the output path stands one argument for every file and namespace that was given.
It is split at its colon into that namespace and that file again, whatever the file is
called: an argument without namespace begins with a slash, so no colon behind it ends a
namespace (`Compiler.splitArgument_ruleArgument`). The arguments stand in the order of
their namespaces, and those of one namespace in the order in which the files were given.
-/

import YaraReport.Proofs.Collections
import YaraReport.Proofs.Path
import YaraReport.Proofs.Session.Compiling
import YaraReport.Proofs.Text.Bytes

namespace YaraReport

/-! ### Absolute paths -/

namespace Path

theorem isRooted_append {front : String} (rooted : isRooted front = true) (rest : String) :
    isRooted (front ++ rest) = true := by
  rw [isRooted, List.isPrefixOf_iff_prefix] at *
  rw [String.toList_append]
  exact rooted.trans (List.prefix_append _ _)

theorem isRooted_join {directory : String} (rooted : isRooted directory = true) (name : String) :
    isRooted (join directory name) = true := by
  unfold join
  split
  · exact isRooted_append rooted _
  · exact isRooted_append (isRooted_append rooted _) _

theorem isRooted_foldl_join {directory : String} (rooted : isRooted directory = true)
    (names : List String) : isRooted (names.foldl join directory) = true := by
  induction names generalizing directory with
  | nil => exact rooted
  | cons name names inductionHypothesis => exact inductionHypothesis (isRooted_join rooted name)

theorem isRooted_absolute {directory : String} (rooted : isRooted directory = true)
    (path : String) : isRooted (absolute directory path) = true := by
  have based : isRooted (base directory path) = true := by
    unfold base
    split
    · split <;> rfl
    · exact rooted
  have spelled := isRooted_foldl_join based (plainNames path)
  unfold absolute
  dsimp only
  split
  · exact isRooted_append spelled _
  · exact spelled

end Path

theorem Machine.isRooted_absolute (machine : Machine) (path : String) :
    Path.isRooted (machine.absolute path) = true := by
  refine Path.isRooted_absolute ?_ path
  by_cases top : machine.directory = []
  · rw [top]
    rfl
  · exact Place.isRooted_path top

namespace Compiler

variable {text space path : String} {given : List (String × String)}
  {entries : List (String × List String)}

/-! ### Arguments for rule files -/

/-- A namespace or the lack of one. -/
def IsSpace (space : String) : Prop := space = "" ∨ isNamespace space.toList = true

theorem splitArgument_of_toList {written rest : List Char}
    (whole : text.toList = written ++ ':' :: rest) (first : ':' ∉ written) :
    splitArgument text =
      if isNamespace written then (String.ofList written, String.ofList rest) else ("", text) := by
  rw [splitArgument, whole, Text.cutAt_append first]
  dsimp only
  rw [Text.drop_past]

theorem splitArgument_of_not_mem (whole : ':' ∉ text.toList) : splitArgument text = ("", text) := by
  rw [splitArgument, Text.cutAt_of_not_mem whole]

theorem isSpace_splitArgument (text : String) : IsSpace (splitArgument text).1 := by
  by_cases separated : ':' ∈ text.toList
  · obtain ⟨written, rest, whole, first⟩ := List.eq_append_cons_of_mem separated
    rw [splitArgument_of_toList whole first]
    split
    · rename_i proper
      exact .inr (by rwa [String.toList_ofList])
    · exact .inl rfl
  · rw [splitArgument_of_not_mem separated]
    exact .inl rfl

/-- No character of a namespace is a colon or a slash. -/
theorem not_mem_of_isNamespace {written : List Char} (proper : isNamespace written = true) :
    ':' ∉ written ∧ '/' ∉ written := by
  rw [isNamespace, Bool.and_eq_true, List.all_eq_true] at proper
  exact ⟨fun member => absurd (proper.2 _ member) (by decide),
    fun member => absurd (proper.2 _ member) (by decide)⟩

/-- What stands before a colon in a rooted path is no namespace. -/
theorem not_isNamespace_of_isRooted {written rest : List Char}
    (rooted : Path.isRooted text = true) (whole : text.toList = written ++ ':' :: rest) :
    isNamespace written = false := by
  obtain ⟨behind, begins⟩ := List.isPrefixOf_iff_prefix.mp rooted
  rw [whole] at begins
  refine eq_false_of_ne_true fun proper => ?_
  cases written with
  | nil => cases begins
  | cons character others =>
    obtain rfl : '/' = character := (List.cons.inj begins).1
    exact (not_mem_of_isNamespace proper).2 List.mem_cons_self

/-- An argument is split into the namespace and the path that it was made of. -/
theorem splitArgument_ruleArgument (proper : IsSpace space) (rooted : Path.isRooted path = true) :
    splitArgument (ruleArgument space path) = (space, path) := by
  unfold ruleArgument
  split
  · rename_i plain
    rw [plain]
    by_cases separated : ':' ∈ path.toList
    · obtain ⟨written, rest, whole, first⟩ := List.eq_append_cons_of_mem separated
      rw [splitArgument_of_toList whole first, not_isNamespace_of_isRooted rooted whole]
      rfl
    · exact splitArgument_of_not_mem separated
  · rename_i named
    have proper := proper.resolve_left named
    have whole : (space ++ ":" ++ path).toList = space.toList ++ ':' :: path.toList := by
      rw [String.toList_append, String.toList_append, List.append_assoc]
      rfl
    rw [splitArgument_of_toList whole (not_mem_of_isNamespace proper).1, if_pos proper,
      String.ofList_toList, String.ofList_toList]

/-! ### Files by namespace -/

/-- The paths of the files of a namespace, in order. -/
def pathsUnder (space : String) (given : List (String × String)) : List String :=
  (given.filter fun pair => pair.1 = space).map Prod.snd

theorem mem_pathsUnder : path ∈ pathsUnder space given ↔ (space, path) ∈ given := by
  rw [pathsUnder, List.mem_map]
  constructor
  · rintro ⟨pair, member, rfl⟩
    obtain ⟨own, same⟩ := List.mem_filter.mp member
    rwa [← of_decide_eq_true same]
  · exact fun member => ⟨_, List.mem_filter.mpr ⟨member, decide_eq_true rfl⟩, rfl⟩

theorem pathsUnder_append (space : String) (given others : List (String × String)) :
    pathsUnder space (given ++ others) = pathsUnder space given ++ pathsUnder space others := by
  rw [pathsUnder, List.filter_append, List.map_append]
  rfl

theorem pathsUnder_map_pair (space other : String) (paths : List String) :
    pathsUnder space (paths.map (Prod.mk other)) = if other = space then paths else [] := by
  rw [pathsUnder, List.filter_map, List.map_map]
  split
  · rename_i same
    have all : paths.filter ((fun pair => decide (pair.1 = space)) ∘ Prod.mk other) = paths :=
      List.filter_eq_self.mpr fun _ _ => decide_eq_true same
    rw [all]
    exact List.map_id paths
  · rename_i different
    have none : paths.filter ((fun pair => decide (pair.1 = space)) ∘ Prod.mk other) = [] :=
      List.filter_eq_nil_iff.mpr fun _ _ own => different (of_decide_eq_true own)
    rw [none]
    rfl

theorem addUnder_eq_alter (space path : String) (entries : List (String × List String)) :
    addUnder space path entries =
      alter space (fun paths => addPath (paths.getD []) path) entries := by
  induction entries with
  | nil => rfl
  | cons entry rest inductionHypothesis =>
    rw [addUnder, alter, inductionHypothesis]
    split
    · rfl
    · split
      · rename_i same
        rw [same]
        rfl
      · rfl

/-- The entries of a compiler to which files were added: the namespaces are in order, and each has
the paths that were given for it, each once. -/
structure Filed (given : List (String × String)) (entries : List (String × List String)) :
    Prop where
  ordered : Ordered entries
  paths : ∀ space, (entries.lookup space).getD [] = distinctPaths (pathsUnder space given)

theorem Filed.add (filed : Filed given entries) (space path : String) :
    Filed (given ++ [(space, path)]) (addUnder space path entries) := by
  rw [addUnder_eq_alter]
  refine ⟨ordered_alter filed.ordered _ _, fun other => ?_⟩
  have added := pathsUnder_map_pair other space [path]
  rw [pathsUnder_append, show [(space, path)] = [path].map (Prod.mk space) from rfl, added]
  by_cases same : space = other
  · rw [if_pos same, distinctPaths_concat, ← filed.paths other, ← same,
      lookup_alter_self filed.ordered]
    rfl
  · rw [if_neg same, List.append_nil, lookup_alter_of_ne _ _ (Ne.symm same), filed.paths]

theorem filed_foldl (given : List (String × String)) :
    Filed given (given.foldl (fun entries pair => addUnder pair.1 pair.2 entries) []) := by
  induction given using List.reverseRecOn with
  | nil => exact ⟨.nil, fun _ => rfl⟩
  | append_singleton given pair inductionHypothesis =>
    rw [List.foldl_append]
    exact inductionHypothesis.add pair.1 pair.2

/-- Every path of the entries with its namespace, in order. -/
def pairs (entries : List (String × List String)) : List (String × String) :=
  entries.flatMap fun entry => entry.2.map (Prod.mk entry.1)

theorem pathsUnder_pairs (ordered : Ordered entries) (space : String) :
    pathsUnder space (pairs entries) = (entries.lookup space).getD [] := by
  induction entries with
  | nil => rfl
  | cons entry rest inductionHypothesis =>
    obtain ⟨least, later⟩ := List.pairwise_cons.mp ordered
    rw [pairs, List.flatMap_cons, pathsUnder_append, pathsUnder_map_pair, ← pairs,
      inductionHypothesis later, List.lookup_cons]
    cases same : space == entry.1 with
    | true =>
      have same := eq_of_beq same
      rw [if_pos same.symm, lookup_eq_none_of_lt fun other member => same ▸ least other member]
      exact List.append_nil _
    | false => rw [if_neg (ne_of_beq_false same).symm, List.nil_append]

theorem pairwise_pairs (ordered : Ordered entries) :
    (pairs entries).Pairwise fun first second => first.1 = second.1 ∨ first.1 < second.1 := by
  refine List.pairwise_flatMap.mpr ⟨fun entry _ => ?_, ordered.imp fun less _ own _ other => ?_⟩
  · exact List.pairwise_map.mpr (List.pairwise_of_forall fun _ _ => .inl rfl)
  · obtain ⟨_, -, rfl⟩ := List.mem_map.mp own
    obtain ⟨_, -, rfl⟩ := List.mem_map.mp other
    exact .inr less

/-- A law for the paths of every namespace is one for the pairs. -/
theorem pairwise_of_pathsUnder {related : String → String → Prop}
    (each : ∀ space, (pathsUnder space given).Pairwise related) :
    given.Pairwise fun first second => first.1 = second.1 → related first.2 second.2 := by
  induction given with
  | nil => exact .nil
  | cons pair given inductionHypothesis =>
    refine List.pairwise_cons.mpr ⟨fun other member same => ?_, inductionHypothesis fun space => ?_⟩
    · have whole := each pair.1
      rw [← List.singleton_append, pathsUnder_append,
        show [pair] = [pair.2].map (Prod.mk pair.1) from rfl, pathsUnder_map_pair,
        if_pos rfl] at whole
      exact (List.pairwise_cons.mp whole).1 _ (mem_pathsUnder.mpr (same ▸ member))
    · have whole := each space
      rw [← List.singleton_append, pathsUnder_append] at whole
      exact (List.pairwise_append.mp whole).2.1

/-- Pairs of namespaces and paths against those that were given: each of these once, in the order of
the bytes of the namespaces, and under each namespace in the order in which they were given. -/
structure Groups (given decoded : List (String × String)) : Prop where
  subset : decoded ⊆ given
  complete : ∀ pair ∈ given, ∃ other ∈ decoded,
    other.1 = pair.1 ∧ Path.same pair.2 other.2 = true
  once : decoded.Pairwise fun first second =>
    first.1 = second.1 → ¬ Path.same first.2 second.2 = true
  increasing : decoded.Pairwise fun first second =>
    first.1 = second.1 ∨ Text.bytes first.1 < Text.bytes second.1
  plainFirst : decoded.Pairwise fun first second => second.1 = "" → first.1 = ""
  paths : ∀ space, pathsUnder space decoded = distinctPaths (pathsUnder space given)

theorem Filed.groups (filed : Filed given entries) : Groups given (pairs entries) := by
  have paths space : pathsUnder space (pairs entries) = distinctPaths (pathsUnder space given) :=
    (pathsUnder_pairs filed.ordered space).trans (filed.paths space)
  have distinct space := distinct_distinctPaths (pathsUnder space given)
  have inOrder := pairwise_pairs filed.ordered
  refine ⟨fun pair member => ?_, fun pair member => ?_, ?_, ?_, ?_, paths⟩
  · have own := mem_pathsUnder.mpr member
    rw [paths] at own
    exact mem_pathsUnder.mp ((distinct pair.1).subset own)
  · obtain ⟨path, own, same⟩ := (distinct pair.1).complete pair.2 (mem_pathsUnder.mpr member)
    rw [← paths] at own
    exact ⟨(pair.1, path), mem_pathsUnder.mp own, rfl, same⟩
  · exact pairwise_of_pathsUnder fun space => paths space ▸ (distinct space).pairwise
  · exact inOrder.imp fun order => order.imp_right Text.bytes_lt_of_lt
  · refine inOrder.imp fun order empty => ?_
    rw [empty] at order
    exact order.resolve_right fun less => List.not_lt_nil _ (String.lt_iff_toList_lt.mp less)

/-! ### Compilers with files -/

/-- The namespaces and the absolute paths that files are given with. -/
def givenBy (machine : Machine) (specs : List String) : List (String × String) :=
  specs.map fun text => ((splitArgument text).1, machine.absolute (splitArgument text).2)

theorem rules_addRule {machine : Machine} {compiler next : Compiler}
    (accepted : compiler.addRule machine space path = .ok next) :
    next.rules = addUnder space (machine.absolute path) compiler.rules := by
  unfold addRule at accepted
  split at accepted
  · cases accepted
    rfl
  · cases accepted

theorem rules_addSpecs {machine : Machine} {specs : List String} {compiler final : Compiler}
    (accepted : Session.addSpecs machine compiler specs = .ok final) :
    final.rules = (givenBy machine specs).foldl
      (fun entries pair => addUnder pair.1 pair.2 entries) compiler.rules := by
  induction specs generalizing compiler with
  | nil =>
    cases accepted
    rfl
  | cons text specs inductionHypothesis =>
    unfold Session.addSpecs at accepted
    dsimp only at accepted
    split at accepted
    · cases accepted
    · rename_i added
      rw [inductionHypothesis accepted, rules_addRule added]
      rfl

theorem filed_compilerFor {settings : Settings} {machine : Machine} {request : CompileRequest}
    {compiler : Compiler}
    (accepted : Session.compilerFor settings machine request = .ok compiler) :
    Filed (givenBy machine request.rules) compiler.rules := by
  unfold Session.compilerFor at accepted
  split at accepted
  · cases accepted
  · rw [rules_addSpecs accepted]
    exact filed_foldl _

/-- The arguments before the output path, split again. -/
theorem map_splitArgument {machine : Machine} {specs : List String}
    (filed : Filed (givenBy machine specs) entries) :
    (entries.flatMap fun entry => entry.2.map (ruleArgument entry.1)).map splitArgument =
      pairs entries := by
  rw [List.map_flatMap, pairs]
  refine List.flatMap_congr fun entry member => ?_
  rw [List.map_map]
  refine List.map_congr_left fun path own => ?_
  have paired : (entry.1, path) ∈ pairs entries :=
    List.mem_flatMap.mpr ⟨entry, member, List.mem_map.mpr ⟨path, own, rfl⟩⟩
  obtain ⟨text, -, made⟩ := List.mem_map.mp (filed.groups.subset paired)
  obtain ⟨named, placed⟩ := Prod.mk.inj made
  exact splitArgument_ruleArgument (named ▸ isSpace_splitArgument text)
    (placed ▸ machine.isRooted_absolute _)

/-- A compiler that is started is handed its arguments, with the path of a temporary file that was
made for it. -/
theorem handed_of_compile {machine : Machine} {compiler : Compiler} {launch : Launch}
    (launched : (compiler.compile machine).launch = some launch) :
    ∃ scratch extended, machine.makeScratch outputExtension = .ok (scratch, extended) ∧
      compiler.arguments scratch.path <:+ launch.arguments := by
  rw [compile] at launched
  split at launched
  · cases launched
  · split at launched
    · cases launched
    · rename_i scratch extended made
      refine ⟨scratch, extended, made, ?_⟩
      rw [launch_conclude, Executable.run, Machine.launch] at launched
      cases called : extended.call compiler.executable.path (compiler.arguments scratch.path) with
      | error error =>
        rw [called] at launched
        cases launched
      | ok call =>
        rw [called] at launched
        cases launched
        exact (Machine.calls_of_call called).handed

end Compiler

namespace Session

theorem launches_fail (context : Context) (machine : Machine) (launches : List Launch)
    (failure : Failure) : (fail context machine launches failure).launches = launches := by
  unfold fail
  split <;> rfl

theorem launches_concludeCompilation (context : Context) (destination : String)
    (finished : Compiler.Finished) :
    (concludeCompilation context destination finished).launches = finished.launch.toList := by
  unfold concludeCompilation
  dsimp only
  split
  · exact launches_fail _ _ _ _
  · exact launches_fail _ _ _ _
  · rename_i compiled _
    unfold Result.after
    dsimp only
    split
    · exact launches_fail _ _ _ _
    · rfl

/-- The arguments that a compiler is given for the files of a compilation end with the path that it
writes to. Those before it, split as the files were given, are the namespaces and absolute paths of
these, each once, grouped by namespace. The program that is started is handed exactly these
arguments, at the end of its own. -/
theorem compile_arguments (context : Context) (machine : Machine) (request : CompileRequest)
    {compiler : Compiler}
    (accepted : compilerFor (context.settings.withFlags request.seconds request.json false) machine
      request = .ok compiler) :
    (∀ output, ∃ arguments, compiler.arguments output = arguments ++ [output] ∧
      Compiler.Groups (Compiler.givenBy machine request.rules)
        (arguments.map Compiler.splitArgument)) ∧
    ∀ launch ∈ (compile context machine request).launches, ∃ scratch extended,
      machine.makeScratch Compiler.outputExtension = .ok (scratch, extended) ∧
      compiler.arguments scratch.path <:+ launch.arguments := by
  have filed := Compiler.filed_compilerFor accepted
  refine ⟨fun output => ⟨_, rfl, ?_⟩, fun launch member => ?_⟩
  · rw [Compiler.map_splitArgument filed]
    exact filed.groups
  · rw [compile, accepted] at member
    rw [launches_concludeCompilation] at member
    exact Compiler.handed_of_compile (Option.mem_toList.mp member)

/-- A file that is given twice for a namespace is compiled once for it, and the files without
namespace come first. -/
theorem compile_arguments_grouped :
    ∃ compiler : Compiler, compiler.arguments "/o" = ["/s", "ab:/s", "ns:/t", "/o"] ∧
      Compiler.Groups [("ns", "/t"), ("", "/s"), ("ns", "//t"), ("ab", "/s")]
        [("", "/s"), ("ab", "/s"), ("ns", "/t")] := by
  have accepted : compilerFor (Settings.defaults.withFlags none false false) .quiet
      ⟨["ns:/t", "/s", "ns://t", "ab:/s"], "/o", none, false, some "/s"⟩ =
        .ok ⟨⟨"/s"⟩, [("", ["/s"]), ("ab", ["/s"]), ("ns", ["/t"])], defaultLimit⟩ := by
    decide +kernel
  obtain ⟨arguments, whole, groups⟩ :=
    (compile_arguments ⟨.defaults, false⟩ .quiet
      ⟨["ns:/t", "/s", "ns://t", "ab:/s"], "/o", none, false, some "/s"⟩ accepted).1 "/o"
  have told : arguments = ["/s", "ab:/s", "ns:/t"] :=
    List.append_cancel_right (whole.symm.trans (by decide +kernel))
  have split : arguments.map Compiler.splitArgument = [("", "/s"), ("ab", "/s"), ("ns", "/t")] := by
    rw [told]
    decide +kernel
  have given : Compiler.givenBy .quiet ["ns:/t", "/s", "ns://t", "ab:/s"] =
      [("ns", "/t"), ("", "/s"), ("ns", "//t"), ("ab", "/s")] := by decide +kernel
  refine ⟨_, by rw [whole, told]; rfl, ?_⟩
  rw [← given, ← split]
  exact groups

end Session

end YaraReport
