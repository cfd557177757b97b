import AppPilotKit.Adapter.ApkManifest
import AppPilotKit.Lib.Preorder

/-! # The element tree of a manifest

What the chunks say of elements is read without a stack and without counting: the starts and
ends of a tree. What the parser counts on its way is compared with the places in this tree.
-/

namespace AppPilotKit.Adapter.Apk

open Wire Checks
open Preorder (Event Closes visits)

/-! ## The elements of an input -/

abbrev ElementEvent := Event StartElement Nat

/-- The pool, the resource map and what a chunk says of elements. -/
structure Reading where
  strings : Option (List Chars)
  resourceMap : Option (List Nat)
  events : List ElementEvent

section
variable (input : Bytes)

def readEvent (cursor : Nat) (chunk : Chunk) (strings : Option (List Chars)) (resourceMap : Option (List Nat)) :
    Parsed Reading := do
  if chunk.kind = 0x0001 then
    refuseIf (strings ≠ none)
    let pool ← parseStringPool (← slice input cursor chunk.last)
    return ⟨some pool, resourceMap, []⟩
  else if chunk.kind = 0x0180 then
    refuseIf (resourceMap ≠ none)
    let pool ← orRefuse strings
    let resources ← parseResourceMap (← slice input cursor chunk.last) pool.length
    return ⟨strings, some resources, []⟩
  else if chunk.kind = 0x0102 then
    let pool ← orRefuse strings
    let resources ← orRefuse resourceMap
    let element ← parseStartElement input pool resources cursor chunk.last chunk.headerSize
    return ⟨strings, resourceMap, [.start element]⟩
  else if chunk.kind = 0x0103 then
    let nameIndex ← leU32 input (← plus cursor 20)
    return ⟨strings, resourceMap, [.finish nameIndex]⟩
  else return ⟨strings, resourceMap, []⟩

/-- What the chunks from `cursor` on say of elements. -/
def readEvents (cursor : Nat) (strings : Option (List Chars)) (resourceMap : Option (List Nat)) : Parsed (List ElementEvent) :=
  if cursor < input.length then
    match read : readChunk input cursor with
    | .error stop => .error stop
    | .ok chunk =>
        match readEvent input cursor chunk strings resourceMap with
        | .error stop => .error stop
        | .ok reading => (readEvents chunk.last reading.strings reading.resourceMap).map (reading.events ++ ·)
  else .ok []
termination_by input.length - cursor
decreasing_by
  have := readChunk_onward input read
  omega

/-- The input is a manifest of this tree. -/
def Encodes (tree : Preorder.Tree StartElement) : Prop :=
  readEvents input 8 none none = .ok (tree.events StartElement.nameIndex)

end

/-! ## What a tree declares -/

/-- An element below the elements that are open before it, nearest first. -/
abbrev Place := List StartElement × StartElement

def Place.parentName (place : Place) : Option Chars := place.1.head?.map (·.name)

section
variable (package : Chars)

def activityName (element : StartElement) : Parsed (Option Chars) := do
  match ← element.identityStringAttribute (some androidNs) "name".toList (some androidAttrName) with
  | none => return none
  | some name => return some (← normalizeActivity package name)

/-- An activity whose normalized name is that of the bootstrap activity. -/
def isBootstrap (element : StartElement) : Bool :=
  decide (element.name = "activity".toList) && decide (activityName package element = .ok (some (expectedActivity package)))

def isApplication (element : StartElement) : Bool := decide (element.name = "application".toList)

/-- The path `/manifest/application/activity` leads to one activity with the bootstrap name,
    exported and not disabled, through the only application. -/
def Declares (tree : Preorder.Tree StartElement) : Prop :=
  tree.root.name = "manifest".toList ∧
    tree.root.identityStringAttribute none "package".toList none = .ok (some package) ∧
    ∃ application activity,
      tree.children.trees.filter (fun child => isApplication child.root) = [application] ∧
        application.children.trees.filter (fun child => isBootstrap package child.root) = [activity] ∧
        activity.root.identityBooleanAttribute (some androidNs) "exported".toList androidAttrExported = .ok (some true) ∧
        ∃ enabled, activity.root.identityBooleanAttribute (some androidNs) "enabled".toList androidAttrEnabled = .ok enabled ∧
          enabled.getD true = true

/-- What the parser counts as an application. -/
def countsApplication (place : Place) : Bool := isApplication place.2 && decide (place.parentName = some "manifest".toList)

/-- What the parser counts as a bootstrap activity. -/
def countsBootstrap (place : Place) : Bool :=
  isBootstrap package place.2 && decide (place.parentName = some "application".toList)

/-- Below something called `manifest`, an application is a child of the root; below something
    called `application`, a bootstrap activity is a grandchild. -/
def Plain (tree : Preorder.Tree StartElement) : Prop :=
  ∀ place ∈ tree.paths,
    (countsApplication place → place.1.length = 1) ∧ (countsBootstrap package place → place.1.length = 2)

end

/-! ## What the parser counts -/

/-- What a part of a run adds for the elements that start in it. -/
structure Tally (package : Chars) (s s' : State) (visited : List Place) : Prop where
  applications : s'.applicationCount = s.applicationCount + visited.countP countsApplication
  activities : s'.bootstrapActivityCount = s.bootstrapActivityCount + visited.countP (countsBootstrap package)
  single : 0 < visited.countP (countsBootstrap package) → s'.bootstrapActivityCount = 1
  kept : visited.countP (countsBootstrap package) = 0 →
    s'.bootstrapExported = s.bootstrapExported ∧ s'.bootstrapEnabled = s.bootstrapEnabled
  described : ∀ place ∈ visited, countsBootstrap package place →
    place.2.identityBooleanAttribute (some androidNs) "exported".toList androidAttrExported = .ok (some s'.bootstrapExported) ∧
      ∃ enabled, place.2.identityBooleanAttribute (some androidNs) "enabled".toList androidAttrEnabled = .ok enabled ∧
        s'.bootstrapEnabled = enabled.getD true
  roots : visited.countP (fun place => place.1.isEmpty) + s.package.toList.length = s'.package.toList.length
  rooted : ∀ place ∈ visited, place.1 = [] → place.2.name = "manifest".toList ∧
    place.2.identityStringAttribute none "package".toList none = .ok (some package)

section
variable {package : Chars} {s m s' : State} {before after : List Place}

theorem Tally.nothing {strings : Option (List Chars)} {resourceMap : Option (List Nat)} {stack : List Nat} :
    Tally package s { s with strings, resourceMap, stack } [] where
  applications := rfl
  activities := rfl
  single := nofun
  kept _ := ⟨rfl, rfl⟩
  described := nofun
  roots := by simp
  rooted := nofun

theorem Tally.append (first : Tally package s m before) (second : Tally package m s' after) :
    Tally package s s' (before ++ after) where
  applications := by
    rw [List.countP_append, second.applications, first.applications]
    omega
  activities := by
    rw [List.countP_append, second.activities, first.activities]
    omega
  single counted := by
    rw [List.countP_append] at counted
    have added := second.activities
    rcases Nat.eq_zero_or_pos (after.countP (countsBootstrap package)) with none | some
    · have one := first.single (by omega)
      omega
    · exact second.single some
  kept none := by
    rw [List.countP_append] at none
    have early := first.kept (by omega)
    have late := second.kept (by omega)
    exact ⟨late.1.trans early.1, late.2.trans early.2⟩
  described place member counted := by
    rcases List.mem_append.mp member with early | late
    · have one := first.single (List.countP_pos_iff.mpr ⟨place, early, counted⟩)
      have none : after.countP (countsBootstrap package) = 0 := by
        have added := second.activities
        have single := second.single
        omega
      have kept := second.kept none
      rw [kept.1, kept.2]
      exact first.described place early counted
    · exact second.described place late counted
  roots := by
    rw [List.countP_append]
    have early := first.roots
    have late := second.roots
    omega
  rooted place member := by
    rcases List.mem_append.mp member with early | late
    · exact first.rooted place early
    · exact second.rooted place late

/-- An element that counts for nothing. -/
theorem Tally.unmoved {place : Place} (application : countsApplication place = false)
    (bootstrap : countsBootstrap package place = false) (inner : place.1 ≠ []) (same : s' = s) : Tally package s s' [place] where
  applications := by simp [same, application]
  activities := by simp [same, bootstrap]
  single := by simp [bootstrap]
  kept _ := by rw [same]; exact ⟨rfl, rfl⟩
  described := by simp [bootstrap]
  roots := by simp [same, inner]
  rooted := by simp [inner]

variable {above : List StartElement} {element : StartElement}

theorem countsApplication_iff {place : Place} : countsApplication place = true ↔
    place.2.name = "application".toList ∧ place.parentName = some "manifest".toList := by
  simp only [countsApplication, isApplication, Bool.and_eq_true, decide_eq_true_eq]

theorem countsBootstrap_iff {place : Place} : countsBootstrap package place = true ↔
    (place.2.name = "activity".toList ∧ activityName package place.2 = .ok (some (expectedActivity package))) ∧
      place.parentName = some "application".toList := by
  simp only [countsBootstrap, isBootstrap, Bool.and_eq_true, decide_eq_true_eq]

theorem not_application {place : Place} (other : place.2.name ≠ "application".toList) : countsApplication place = false :=
  Bool.eq_false_iff.mpr fun counts => other (countsApplication_iff.mp counts).1

theorem not_bootstrap {place : Place} (other : place.2.name ≠ "activity".toList) : countsBootstrap package place = false :=
  Bool.eq_false_iff.mpr fun counts => other (countsBootstrap_iff.mp counts).1.1

theorem manifest_not_application : "manifest".toList ≠ "application".toList := by decide

theorem manifest_not_activity : "manifest".toList ≠ "activity".toList := by decide

theorem application_not_activity : "application".toList ≠ "activity".toList := by decide

/-- An element leaves the pool, the resource map and the stack as they are. -/
structure Framed (s s' : State) : Prop where
  strings : s'.strings = s.strings
  resourceMap : s'.resourceMap = s.resourceMap
  stack : s'.stack = s.stack

theorem Framed.refl : Framed s s := ⟨rfl, rfl, rfl⟩

theorem onManifest_tally (named : element.name = "manifest".toList) (first : s.package = none)
    (done : onManifest package element s = .ok s') : Tally package s s' [([], element)] ∧ Framed s s' := by
  simp only [onManifest, bind_ok, orRefuse_ok] at done
  obtain ⟨found, read, value, rfl, ⟨⟩, same, done⟩ := done
  have same : value = package := not_not.mp (refuseIf_ok.mp same)
  cases done
  have application : countsApplication ([], element) = false := not_application (named ▸ manifest_not_application)
  have bootstrap : countsBootstrap package ([], element) = false := not_bootstrap (named ▸ manifest_not_activity)
  refine ⟨?_, rfl, rfl, rfl⟩
  constructor
  · simp [application]
  · simp [bootstrap]
  · simp [bootstrap]
  · exact fun _ => ⟨rfl, rfl⟩
  · simp [bootstrap]
  · simp [first]
  · rintro place member -
    cases List.mem_singleton.mp member
    exact ⟨named, same ▸ read⟩

theorem onApplication_tally (application : countsApplication (above, element)) (inner : above ≠ [])
    (done : onApplication s = .ok s') : Tally package s s' [(above, element)] ∧ Framed s s' := by
  simp only [onApplication, bind_ok] at done
  obtain ⟨count, counted, done⟩ := done
  have counted := plus_ok counted
  cases done
  have named : element.name = "application".toList := (countsApplication_iff.mp application).1
  have other : countsBootstrap package (above, element) = false := not_bootstrap (named ▸ application_not_activity)
  refine ⟨?_, rfl, rfl, rfl⟩
  constructor
  · simp [application, counted]
  · simp [other]
  · simp [other]
  · exact fun _ => ⟨rfl, rfl⟩
  · simp [other]
  · simp [inner]
  · simp [inner]

theorem onActivity_tally (named : element.name = "activity".toList)
    (parent : Place.parentName (above, element) = some "application".toList) (inner : above ≠ [])
    (done : onActivity package element s = .ok s') : Tally package s s' [(above, element)] ∧ Framed s s' := by
  have notApplication : countsApplication (above, element) = false := not_application (named ▸ application_not_activity.symm)
  have counts : countsBootstrap package (above, element) = true ↔
      activityName package element = .ok (some (expectedActivity package)) :=
    countsBootstrap_iff.trans ⟨fun all => all.1.2, fun called => ⟨⟨named, called⟩, parent⟩⟩
  simp only [onActivity, bind_ok] at done
  obtain ⟨found, read, done⟩ := done
  rcases found with _ | name
  · cases done
    have called : activityName package element = .ok none := by
      unfold activityName
      rw [read]
      rfl
    refine ⟨Tally.unmoved notApplication ?_ inner rfl, .refl⟩
    rw [called] at counts
    exact Bool.eq_false_iff.mpr fun counted => nomatch counts.mp counted
  · simp only [bind_ok] at done
    obtain ⟨normalized, normal, done⟩ := done
    have called : activityName package element = .ok (some normalized) := by
      unfold activityName
      rw [read]
      show (do return some (← normalizeActivity package name)) = _
      rw [normal]
      rfl
    rw [called] at counts
    split at done
    · next expected =>
        simp only [bind_ok, orRefuse_ok] at done
        obtain ⟨count, counted, ⟨⟩, single, exported, readExported, value, rfl, enabled, readEnabled, done⟩ := done
        have counted := plus_ok counted
        have single : count = 1 := not_not.mp (refuseIf_ok.mp single)
        cases done
        have counts : countsBootstrap package (above, element) = true := counts.mpr (by rw [expected])
        refine ⟨?_, rfl, rfl, rfl⟩
        constructor
        · simp [notApplication]
        · simp [counts, counted]
        · exact fun _ => single
        · simp [counts]
        · rintro place member -
          cases List.mem_singleton.mp member
          exact ⟨readExported, enabled, readEnabled, rfl⟩
        · simp [inner]
        · simp [inner]
    · next other =>
        cases done
        refine ⟨Tally.unmoved notApplication ?_ inner rfl, .refl⟩
        exact Bool.eq_false_iff.mpr fun counted => other (Option.some.inj (Except.ok.inj (counts.mp counted)))

theorem onElement_tally (stacked : s.stack = above.map StartElement.nameIndex)
    (done : onElement package element (Place.parentName (above, element)) s = .ok s') :
    Tally package s s' [(above, element)] ∧ Framed s s' := by
  have empty : s.stack = [] ↔ above = [] := by rw [stacked, List.map_eq_nil_iff]
  have inner {name : Chars} (parent : Place.parentName (above, element) = some name) : above ≠ [] := by
    rintro rfl
    cases parent
  unfold onElement at done
  split at done
  · next root =>
      obtain rfl := empty.mp root.2.1
      exact onManifest_tally root.1 root.2.2 done
  split at done
  · next application =>
      exact onApplication_tally (countsApplication_iff.mpr application) (inner application.2) done
  split at done
  · next activity => exact onActivity_tally activity.1 activity.2 (inner activity.2) done
  split at done
  · cases done
  · next noApplication noActivity below =>
      cases done
      refine ⟨Tally.unmoved ?_ ?_ (fun none => below (empty.mpr none)) rfl, .refl⟩
      · exact Bool.eq_false_iff.mpr fun counted => noApplication (countsApplication_iff.mp counted)
      · rw [Bool.eq_false_iff]
        intro counted
        obtain ⟨⟨named, -⟩, parent⟩ := countsBootstrap_iff.mp counted
        exact noActivity ⟨named, parent⟩

/-! ## The run -/

/-- The stack is the path to the innermost open element, and the pool has the names on it. -/
structure Standing (above : List StartElement) (s : State) : Prop where
  stacked : s.stack = above.map StartElement.nameIndex
  named : ∀ outer ∈ above, ∀ pool, s.strings = some pool → poolGet pool outer.nameIndex = .ok outer.name

theorem Standing.parentName {pool : List Chars} (standing : Standing above s) (there : s.strings = some pool) {parent : Option Chars}
    (found : parentName pool s.stack = .ok parent) : parent = Place.parentName (above, element) := by
  rw [standing.stacked] at found
  rcases above with _ | ⟨outer, above⟩
  · cases found
    rfl
  · have named := standing.named outer (List.mem_cons_self ..) pool there
    simp only [List.map_cons, Apk.parentName, bind_ok, named] at found
    obtain ⟨name, ⟨⟩, ⟨⟩⟩ := found
    rfl

theorem parseStartElement_named {input : Bytes} {pool : List Chars} {resources : List Nat} {cursor last headerSize : Nat}
    (parsed : parseStartElement input pool resources cursor last headerSize = .ok element) :
    poolGet pool element.nameIndex = .ok element.name := by
  simp only [parseStartElement, bind_ok] at parsed
  obtain ⟨-, -, -, -, -, -, -, -, nameIndex, -, name, named, parsed⟩ := parsed
  repeat obtain ⟨_, _, parsed⟩ := parsed
  exact named

theorem onStart_steps {pool : List Chars} (standing : Standing above s) (there : s.strings = some pool)
    (known : poolGet pool element.nameIndex = .ok element.name) (done : onStart package pool element s = .ok s') :
    Tally package s s' [(above, element)] ∧ Standing (element :: above) s' ∧ s'.strings = s.strings ∧
      s'.resourceMap = s.resourceMap := by
  simp only [onStart, bind_ok] at done
  obtain ⟨parent, found, m, visited, done⟩ := done
  obtain rfl : parent = Place.parentName (above, element) := standing.parentName there found
  obtain ⟨tally, framed⟩ := onElement_tally standing.stacked visited
  cases done
  refine ⟨⟨tally.applications, tally.activities, tally.single, tally.kept, tally.described, tally.roots, tally.rooted⟩,
    ⟨?_, ?_⟩, framed.strings, framed.resourceMap⟩
  · exact congrArg (element.nameIndex :: ·) (framed.stack.trans standing.stacked)
  · intro outer member found again
    rw [show _ = m.strings from rfl, framed.strings] at again
    rcases List.mem_cons.mp member with rfl | member
    · cases there.symm.trans again
      exact known
    · exact standing.named outer member found again

theorem onEnd_steps {pool : List Chars} {nameIndex : Nat} (standing : Standing above s) (done : onEnd pool nameIndex s = .ok s') :
    ∃ element outer, above = element :: outer ∧ element.nameIndex = nameIndex ∧ Standing outer s' ∧ s' = { s with stack := s'.stack } := by
  simp only [onEnd, bind_ok] at done
  obtain ⟨name, -, done⟩ := done
  have stacked := standing.stacked
  rcases above with _ | ⟨element, outer⟩
  · rw [stacked] at done
    cases done
  · rw [stacked] at done
    simp only [List.map_cons] at done
    split at done
    · next same =>
        cases done
        refine ⟨element, outer, rfl, same, ⟨rfl, fun inner member => ?_⟩, rfl⟩
        exact standing.named inner (List.mem_cons_of_mem _ member)
    · cases done

/-- What a chunk does to the state and what it says of elements go together. -/
structure Told (package : Chars) (above : List StartElement) (s s' : State) (events : List ElementEvent)
    (later : List StartElement) : Prop where
  tally : Tally package s s' (visits above events)
  standing : Standing later s'
  visits (rest : List ElementEvent) : visits above (events ++ rest) = Preorder.visits above events ++ Preorder.visits later rest
  closes (rest : List ElementEvent) :
    Closes StartElement.nameIndex later rest → Closes StartElement.nameIndex above (events ++ rest)

theorem Told.silent (standing : Standing above s') (same : Tally package s s' []) : Told package above s s' [] above :=
  ⟨same, standing, fun _ => rfl, fun _ => id⟩

variable {input : Bytes} {cursor : Nat} {chunk : Chunk}

theorem onChunk_told (standing : Standing above s) (done : onChunk package input cursor chunk s = .ok s') :
    ∃ events later, readEvent input cursor chunk s.strings s.resourceMap = .ok ⟨s'.strings, s'.resourceMap, events⟩ ∧
      Told package above s s' events later := by
  unfold onChunk at done
  split at done
  · next first =>
      obtain ⟨kind, none, empty⟩ := first
      simp only [bind_ok] at done
      obtain ⟨part, cut, pool, parsed, ⟨⟩⟩ := done
      have alone : above = [] := by
        have stacked := standing.stacked
        rwa [empty, eq_comm, List.map_eq_nil_iff] at stacked
      subst alone
      refine ⟨[], [], ?_, .silent ⟨standing.stacked, nofun⟩ .nothing⟩
      simp [readEvent, kind, none, refuseIf, cut, parsed, bind, Except.bind, pure, Except.pure]
  split at done
  · next second =>
      obtain ⟨kind, -, none, -⟩ := second
      simp only [bind_ok, orRefuse_ok] at done
      obtain ⟨pool, there, part, cut, resources, parsed, ⟨⟩⟩ := done
      refine ⟨[], above, ?_, .silent ⟨standing.stacked, standing.named⟩ .nothing⟩
      simp [readEvent, kind, there, none, refuseIf, orRefuse, cut, parsed, bind, Except.bind, pure, Except.pure]
  split at done
  · next kind =>
      simp only [bind_ok] at done
      obtain ⟨-, -, ⟨⟩⟩ := done
      refine ⟨[], above, ?_, .silent standing .nothing⟩
      rcases kind with kind | kind <;> simp [readEvent, kind, pure, Except.pure]
  split at done
  · next kind =>
      simp only [bind_ok, orRefuse_ok] at done
      obtain ⟨-, -, pool, there, resources, mapped, element, parsed, done⟩ := done
      obtain ⟨tally, standing, strings, resourceMap⟩ := onStart_steps standing there (parseStartElement_named parsed) done
      refine ⟨[.start element], element :: above, ?_, tally, standing, fun _ => rfl, fun _ => id⟩
      rw [strings, resourceMap]
      simp [readEvent, kind, there, mapped, orRefuse, parsed, bind, Except.bind, pure, Except.pure]
  split at done
  · next kind =>
      simp only [bind_ok, orRefuse_ok] at done
      obtain ⟨-, -, offset, sum, nameIndex, read, pool, there, done⟩ := done
      obtain ⟨element, outer, rfl, same, standing, changed⟩ := onEnd_steps standing done
      refine ⟨[.finish nameIndex], outer, ?_, ?_, standing, fun _ => rfl, fun _ closes => ⟨same, closes⟩⟩
      · rw [changed]
        simp [readEvent, kind, sum, read, bind, Except.bind, pure, Except.pure]
      · rw [changed]
        exact .nothing
  · cases done

/-- What a run of the parser counts, and the events that it has seen. -/
theorem parseChunks_told {final : Nat × State} (standing : Standing above s)
    (done : parseChunks package input cursor s = .ok final) (closed : final.2.stack = []) :
    ∃ events, readEvents input cursor s.strings s.resourceMap = .ok events ∧
      Tally package s final.2 (visits above events) ∧ Closes StartElement.nameIndex above events := by
  fun_induction parseChunks package input cursor s generalizing above with
  | case1 cursor s inside stop read => cases done
  | case2 cursor s inside chunk read stop stopped => cases done
  | case3 cursor s inside chunk read s' step ih =>
      obtain ⟨events, later, told, here⟩ := onChunk_told standing step
      obtain ⟨rest, reads, tally, closes⟩ := ih here.standing done
      refine ⟨events ++ rest, ?_, ?_, here.closes rest closes⟩
      · rw [readEvents, if_pos inside]
        split
        · next failed =>
            rw [read] at failed
            cases failed
        · next found =>
            cases read.symm.trans found
            rw [told]
            dsimp only
            rw [reads]
            rfl
      · rw [here.visits]
        exact here.tally.append tally
  | case4 cursor s outside =>
      cases done
      have stacked := standing.stacked
      rw [closed, eq_comm, List.map_eq_nil_iff] at stacked
      refine ⟨[], ?_, .nothing, stacked⟩
      rw [readEvents, if_neg outside]

end

/-! ## Accepted manifests -/

section
variable {package : Chars} {input : Bytes}

theorem validateManifest_told (accepted : validateManifest package input = .ok ()) :
    ∃ events s, readEvents input 8 none none = .ok events ∧ Closes StartElement.nameIndex [] events ∧
      Tally package {} s (visits [] events) ∧ s.package = some package ∧ s.applicationCount = 1 ∧
      s.bootstrapActivityCount = 1 ∧ s.bootstrapExported = true ∧ s.bootstrapEnabled = true := by
  simp only [validateManifest, parseBinaryManifest, bind_ok, orRefuse_ok] at accepted
  obtain ⟨facts, ⟨-, -, -, -, -, -, -, -, -, -, -, -, -, -, ⟨cursor, s⟩, parsed, ⟨⟩, complete, named, there, ⟨⟩⟩, facts⟩ := accepted
  obtain ⟨-, closed⟩ := not_or.mp (refuseIf_ok.mp complete)
  split at facts
  · next all =>
      obtain ⟨rfl, one, single, exported, enabled⟩ := all
      obtain ⟨events, read, tally, closes⟩ := parseChunks_told (⟨rfl, nofun⟩ : Standing [] {}) parsed (not_not.mp closed)
      exact ⟨events, s, read, closes, tally, there, one, single, exported, enabled⟩
  · cases facts

/-- The events are those of one tree. -/
theorem single_tree {events : List ElementEvent} {s : State} (closes : Closes StartElement.nameIndex [] events)
    (tally : Tally package {} s (visits [] events)) (named : s.package = some package) :
    ∃ tree : Preorder.Tree StartElement, events = tree.events StartElement.nameIndex := by
  obtain ⟨forest, rfl⟩ := closes.forest
  have paths := Preorder.visits_events StartElement.nameIndex forest [] []
  rw [List.append_nil, visits, List.append_nil] at paths
  have roots := tally.roots
  rw [paths, named] at roots
  obtain ⟨tree, rfl⟩ := forest.single roots
  exact ⟨tree, rfl⟩

variable {tree : Preorder.Tree StartElement}

/-- How many applications and bootstrap activities stand where they belong. -/
theorem applications_counted (named : tree.root.name = "manifest".toList) :
    (tree.paths.filter fun place => place.1.length = 1).countP countsApplication =
      (tree.children.trees.filter fun child => isApplication child.root).length := by
  rw [tree.paths_children, List.countP_map, List.countP_eq_length_filter]
  congr 2
  funext child
  simp only [Function.comp, countsApplication, Place.parentName, List.head?_cons, Option.map_some, named, decide_true, Bool.and_true]

theorem activities_counted {application : Preorder.Tree StartElement}
    (single : tree.children.trees.filter (fun child => isApplication child.root) = [application]) :
    (tree.paths.filter fun place => place.1.length = 2).countP (countsBootstrap package) =
      (application.children.trees.filter fun child => isBootstrap package child.root).length := by
  have others (child : Preorder.Tree StartElement) (other : isApplication child.root = false) :
      (List.countP (countsBootstrap package) ∘ fun child : Preorder.Tree StartElement =>
        child.children.trees.map fun grandchild => ([child.root, tree.root], grandchild.root)) child = 0 := by
    rw [Function.comp, List.countP_eq_zero]
    intro place member counts
    obtain ⟨grandchild, -, rfl⟩ := List.mem_map.mp member
    obtain ⟨-, parent⟩ := countsBootstrap_iff.mp counts
    exact absurd (Option.some.inj parent) (by simpa only [isApplication, decide_eq_false_iff_not] using other)
  have application_named : application.root.name = "application".toList := by
    have member : application ∈ tree.children.trees.filter fun child => isApplication child.root := single ▸ List.mem_singleton_self _
    simpa only [isApplication, decide_eq_true_eq] using (List.mem_filter.mp member).2
  rw [tree.paths_grandchildren, List.countP_flatMap, Preorder.sum_map_chosen others, single, List.map_singleton, List.sum_singleton,
    Function.comp, List.countP_map, List.countP_eq_length_filter]
  congr 2
  funext child
  simp only [Function.comp, countsBootstrap, Place.parentName, List.head?_cons, Option.map_some, application_named, decide_true,
    Bool.and_true]

/-- An accepted manifest is one tree. It declares one bootstrap activity on its path exactly when
    applications and bootstrap activities do not stand deeper, below elements of the same names. -/
theorem validateManifest_declares (accepted : validateManifest package input = .ok ()) :
    (∃ tree, Encodes input tree) ∧ ∀ tree, Encodes input tree → (Declares package tree ↔ Plain package tree) := by
  obtain ⟨events, s, read, closes, tally, named, applications, activities, exported, enabled⟩ := validateManifest_told accepted
  obtain ⟨first, rfl⟩ := single_tree closes tally named
  refine ⟨⟨first, read⟩, fun tree encodes => ?_⟩
  rw [Encodes.eq_1, read] at encodes
  rw [Except.ok.inj encodes, Preorder.visits_tree] at tally
  have root := tally.rooted ([], tree.root) (List.mem_cons_self ..) rfl
  have one : tree.paths.countP countsApplication = 1 := by
    have counted := tally.applications
    rw [applications] at counted
    simpa using counted.symm
  have single : tree.paths.countP (countsBootstrap package) = 1 := by
    have counted := tally.activities
    rw [activities] at counted
    simpa using counted.symm
  have plain : Plain package tree ↔
      (tree.paths.filter fun place => place.1.length = 1).countP countsApplication = 1 ∧
        (tree.paths.filter fun place => place.1.length = 2).countP (countsBootstrap package) = 1 := by
    have children := @Preorder.countP_chosen _ countsApplication (fun place => place.1.length = 1) tree.paths
    have grandchildren := @Preorder.countP_chosen _ (countsBootstrap package) (fun place => place.1.length = 2) tree.paths
    rw [one] at children
    rw [single] at grandchildren
    rw [children, grandchildren]
    simp only [decide_eq_true_eq, Plain]
    exact forall₂_and
  rw [plain, applications_counted root.1, Declares, List.length_eq_one_iff]
  constructor
  · rintro ⟨-, -, application, activity, alone, only, -⟩
    refine ⟨⟨application, alone⟩, ?_⟩
    rw [activities_counted alone, only, List.length_singleton]
  · rintro ⟨⟨application, alone⟩, counted⟩
    rw [activities_counted alone, List.length_eq_one_iff] at counted
    obtain ⟨activity, only⟩ := counted
    have child : application ∈ tree.children.trees.filter fun child => isApplication child.root := alone ▸ List.mem_singleton_self _
    have grandchild : activity ∈ application.children.trees.filter fun child => isBootstrap package child.root :=
      only ▸ List.mem_singleton_self _
    rw [List.mem_filter] at child grandchild
    have there : ([application.root, tree.root], activity.root) ∈ tree.paths := by
      refine List.mem_of_mem_filter (p := fun place => place.1.length = 2) ?_
      rw [tree.paths_grandchildren, List.mem_flatMap]
      exact ⟨application, child.1, List.mem_map_of_mem grandchild.1⟩
    have counts : countsBootstrap package ([application.root, tree.root], activity.root) := by
      rw [countsBootstrap, grandchild.2, Bool.true_and, decide_eq_true_eq]
      have named : application.root.name = "application".toList := by simpa only [isApplication, decide_eq_true_eq] using child.2
      exact congrArg some named
    obtain ⟨readExported, found, readEnabled, value⟩ := tally.described _ there counts
    rw [exported] at readExported
    rw [enabled] at value
    exact ⟨root.1, root.2, application, activity, alone, only, readExported, found, readEnabled, value.symm⟩

end

/-! ## A manifest in a manifest -/

def le16 (n : Nat) : Bytes := (be 2 n).reverse

def le32 (n : Nat) : Bytes := (be 4 n).reverse

def chunkBytes (kind headerSize : Nat) (content : Bytes) : Bytes :=
  le16 kind ++ le16 headerSize ++ le32 (content.length + 8) ++ content

def stringBytes (text : Chars) : Bytes :=
  UInt8.ofNat text.length :: UInt8.ofNat text.length :: (Cbor.utf8 text ++ [0])

def offsetBytes : Nat → List Chars → Bytes
  | _, [] => []
  | offset, text :: texts => le32 offset ++ offsetBytes (offset + (stringBytes text).length) texts

def poolBytes (texts : List Chars) : Bytes :=
  chunkBytes 0x0001 28 (le32 texts.length ++ le32 0 ++ le32 0x100 ++ le32 (28 + 4 * texts.length) ++ le32 0 ++
    offsetBytes 0 texts ++ texts.flatMap stringBytes)

def attributeBytes (ns name : Nat) (kind : UInt8) (data : Nat) : Bytes :=
  le32 ns ++ le32 name ++ le32 noIndex ++ [8, 0, 0, kind] ++ le32 data

def startBytes (name : Nat) (attributes : List Bytes) : Bytes :=
  chunkBytes 0x0102 16 (le32 0 ++ le32 noIndex ++ le32 noIndex ++ le32 name ++ le16 20 ++ le16 20 ++
    le16 attributes.length ++ le16 0 ++ le16 0 ++ le16 0 ++ attributes.flatten)

def endBytes (name : Nat) : Bytes := chunkBytes 0x0103 16 (le32 0 ++ le32 noIndex ++ le32 noIndex ++ le32 name)

def sampleTexts : List Chars :=
  ["name".toList, "exported".toList, "package".toList, "manifest".toList, "application".toList, "activity".toList,
    androidNs, ['a'], '.' :: bootstrapClass]

/-- A manifest of some elements, with the names in the order of `sampleTexts`. -/
def manifestBytes (elements : Bytes) : Bytes :=
  chunkBytes 0x0003 8 (poolBytes sampleTexts ++ chunkBytes 0x0180 8 (le32 androidAttrName ++ le32 androidAttrExported) ++ elements)

def rootBytes (children : Bytes) : Bytes := startBytes 3 [attributeBytes noIndex 2 3 7] ++ children ++ endBytes 3

def applicationBytes : Bytes :=
  startBytes 4 [] ++ startBytes 5 [attributeBytes 6 0 3 8, attributeBytes 6 1 0x12 1] ++ endBytes 5 ++ endBytes 4

/-- `<manifest><application><activity/></application></manifest>` -/
def plainManifest : Bytes := manifestBytes (rootBytes applicationBytes)

/-- `<manifest><manifest><application><activity/></application></manifest></manifest>` -/
def nestedManifest : Bytes := manifestBytes (rootBytes (startBytes 3 [] ++ applicationBytes ++ endBytes 3))

theorem validateManifest_declares_plain :
    validateManifest ['a'] plainManifest = .ok () ∧ (∃ tree, Encodes plainManifest tree) ∧
      ∀ tree, Encodes plainManifest tree → (Declares ['a'] tree ↔ Plain ['a'] tree) := by
  have accepted : validateManifest ['a'] plainManifest = .ok () := by decide +kernel
  exact ⟨accepted, validateManifest_declares accepted⟩

/-- The elements of the nested manifest. -/
def nestedTree : Preorder.Tree StartElement where
  root := ⟨3, "manifest".toList, [⟨none, "package".toList, none, none, .string ['a']⟩]⟩
  children :=
    .tree ⟨3, "manifest".toList, []⟩
      (.tree ⟨4, "application".toList, []⟩
        (.tree
          ⟨5, "activity".toList,
            [⟨some androidNs, "name".toList, some androidAttrName, none, .string ('.' :: bootstrapClass)⟩,
              ⟨some androidNs, "exported".toList, some androidAttrExported, none, .boolean true⟩]⟩
          .none .none)
        .none)
      .none

theorem nestedTree_encoded : Encodes nestedManifest nestedTree := by
  unfold Encodes
  decide +kernel

theorem nestedManifest_accepted :
    validateManifest ['a'] nestedManifest = .ok () ∧ (∃ tree, Encodes nestedManifest tree) ∧
      ∀ tree, Encodes nestedManifest tree → ¬ Declares ['a'] tree := by
  refine ⟨by decide +kernel, ⟨nestedTree, nestedTree_encoded⟩, ?_⟩
  rintro tree encodes ⟨named, -, application, -, single, -⟩
  have same : tree.paths = nestedTree.paths := by
    have events := Except.ok.inj (encodes.symm.trans nestedTree_encoded)
    rw [← Preorder.visits_tree StartElement.nameIndex, events, Preorder.visits_tree]
  have counted := applications_counted named
  have none : (nestedTree.paths.filter fun place => place.1.length = 1).countP countsApplication = 0 := by decide +kernel
  rw [single, same, none] at counted
  cases counted

end AppPilotKit.Adapter.Apk
