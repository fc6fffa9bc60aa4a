import MetricRates.Disk.Host

/-!
# What is done to the surroundings

The surroundings may answer every request as they like, and differently each time.
Here they are a host that answers by all that was done before and keeps a record of it.
What is stated for every such host holds whatever the disk does.
-/

namespace MetricRates.Disk

/-- Something that is done to the surroundings, with the answer to it. -/
inductive Deed where
  | look (path : String) (found : Bool)
  | read (path : String) (answer : Except ReadFailure (List UInt8))
  | make (directory : String) (answer : Except DiskError Unit)
  | write (path : String) (content : Content) (answer : Except DiskError Unit)
  | print (line : String)
  | tell (event : Event)

/-- How requests are answered, by what was done before. -/
structure Answers where
  has : List Deed → String → Bool
  readFile : List Deed → String → Except ReadFailure (List UInt8)
  makeDirectories : List Deed → String → Except DiskError Unit
  writeFile : List Deed → String → Content → Except DiskError Unit

/-- The host that gives some answers and keeps a record of what is done. -/
def Answers.host (answers : Answers) : Host (StateM (List Deed)) where
  has path := do
    let found := answers.has (← get) path
    modify (· ++ [.look path found])
    return found
  readFile path := do
    let answer := answers.readFile (← get) path
    modify (· ++ [.read path answer])
    return answer
  makeDirectories directory := do
    let answer := answers.makeDirectories (← get) directory
    modify (· ++ [.make directory answer])
    return answer
  writeFile path content := do
    let answer := answers.writeFile (← get) path content
    modify (· ++ [.write path content answer])
    return answer
  print line := modify (· ++ [.print line])
  tell event := modify (· ++ [.tell event])

/-! ## Views of a record -/

/-- The line that is printed, if one is. -/
def Deed.line? : Deed → Option String
  | .print line => some line
  | _ => none

/-- Whether a deed asks the disk for a change. -/
def Deed.isRequest : Deed → Bool
  | .make .. | .write .. => true
  | _ => false

/-- Whether a deed asks the disk for a change that it refuses. -/
def Deed.isRefused : Deed → Bool
  | .make _ (.error _) | .write _ _ (.error _) => true
  | _ => false

/-- The path that is to be written, whether or not it can be. -/
def Deed.writtenPath? : Deed → Option String
  | .write path .. => some path
  | _ => none

/-- The lines that are printed. -/
def printed (deeds : List Deed) : List String :=
  deeds.filterMap Deed.line?

/-- The changes that the disk is asked for, with its answers. -/
def requests (deeds : List Deed) : List Deed :=
  deeds.filter Deed.isRequest

/-- The paths that are to be written, in order. -/
def writtenPaths (deeds : List Deed) : List String :=
  deeds.filterMap Deed.writtenPath?

@[simp]
theorem writtenPaths_append (first second : List Deed) :
    writtenPaths (first ++ second) = writtenPaths first ++ writtenPaths second :=
  List.filterMap_append

@[simp]
theorem writtenPaths_map_tell (events : List Event) : writtenPaths (events.map .tell) = [] := by
  simp [writtenPaths, Deed.writtenPath?]

/-- To write a file is to ask the disk for a change. -/
theorem writtenPaths_requests (deeds : List Deed) :
    writtenPaths (requests deeds) = writtenPaths deeds := by
  rw [writtenPaths, requests, List.filterMap_filter]
  congr
  funext deed
  cases deed <;> rfl

@[simp]
theorem printed_append (first second : List Deed) :
    printed (first ++ second) = printed first ++ printed second :=
  List.filterMap_append

@[simp]
theorem requests_append (first second : List Deed) :
    requests (first ++ second) = requests first ++ requests second :=
  List.filter_append first second

@[simp]
theorem printed_map_print (lines : List String) : printed (lines.map .print) = lines := by
  simp [printed, List.filterMap_map, Function.comp_def, Deed.line?]

@[simp]
theorem requests_map_print (lines : List String) : requests (lines.map .print) = [] := by
  simp [requests, Deed.isRequest]

@[simp]
theorem printed_map_tell (events : List Event) : printed (events.map .tell) = [] := by
  simp [printed, Deed.line?]

@[simp]
theorem requests_map_tell (events : List Event) : requests (events.map .tell) = [] := by
  simp [requests, Deed.isRequest]

/-! ## What actions do -/

variable {α β : Type} {answers : Answers}

/-- Whatever was done before, an action does deeds and has a result that meet a
specification. -/
def Ensures (action : StateM (List Deed) α) (spec : List Deed → α → Prop) : Prop :=
  ∀ past, ∃ deeds result, action.run past = (result, past ++ deeds) ∧ spec deeds result

theorem ensures_pure {spec : List Deed → α → Prop} {a : α} (met : spec [] a) :
    Ensures (pure a) spec := by
  intro past
  refine ⟨[], a, ?_, met⟩
  rw [List.append_nil]
  rfl

/-- One action after another does the deeds of both. -/
theorem Ensures.bind {action : StateM (List Deed) α} {next : α → StateM (List Deed) β}
    {spec : List Deed → α → Prop} {whole : List Deed → β → Prop} (first : Ensures action spec)
    (second : ∀ deeds a, spec deeds a → Ensures (next a) fun more b => whole (deeds ++ more) b) :
    Ensures (action >>= next) whole := by
  intro past
  obtain ⟨deeds, a, ran, met⟩ := first past
  obtain ⟨more, b, ranOn, metOn⟩ := second deeds a met (past ++ deeds)
  refine ⟨deeds ++ more, b, ?_, metOn⟩
  change (next (action.run past).1).run (action.run past).2 = _
  rw [ran, ← List.append_assoc]
  exact ranOn

theorem Ensures.imp {action : StateM (List Deed) α} {spec weaker : List Deed → α → Prop}
    (ensured : Ensures action spec) (follows : ∀ deeds a, spec deeds a → weaker deeds a) :
    Ensures action weaker := by
  intro past
  obtain ⟨deeds, a, ran, met⟩ := ensured past
  exact ⟨deeds, a, ran, follows deeds a met⟩

/-- What is made of a result at the end does nothing more. -/
theorem Ensures.map {action : StateM (List Deed) α} {f : α → β} {spec : List Deed → α → Prop}
    {whole : List Deed → β → Prop} (ensured : Ensures action spec)
    (follows : ∀ deeds a, spec deeds a → whole deeds (f a)) :
    Ensures (action >>= fun a => pure (f a)) whole := by
  apply ensured.bind
  intro deeds a met
  refine ensures_pure ?_
  rw [List.append_nil]
  exact follows deeds a met

theorem ensures_makeDirectories (directory : String) :
    Ensures (answers.host.makeDirectories directory)
      fun deeds answer => deeds = [.make directory answer] :=
  fun _ => ⟨_, _, rfl, rfl⟩

theorem ensures_writeFile (path : String) (content : Content) :
    Ensures (answers.host.writeFile path content)
      fun deeds answer => deeds = [.write path content answer] :=
  fun _ => ⟨_, _, rfl, rfl⟩

theorem ensures_print (line : String) :
    Ensures (answers.host.print line) fun deeds _ => deeds = [.print line] :=
  fun _ => ⟨_, _, rfl, rfl⟩

theorem ensures_tell (event : Event) :
    Ensures (answers.host.tell event) fun deeds _ => deeds = [.tell event] :=
  fun _ => ⟨_, _, rfl, rfl⟩

theorem ensures_printAll (lines : List String) :
    Ensures (answers.host.printAll lines) fun deeds _ => deeds = lines.map .print := by
  induction lines with
  | nil => exact ensures_pure rfl
  | cons line lines ih =>
      apply (ensures_print line).bind
      rintro _ _ rfl
      exact ih.imp fun deeds _ rest => congrArg _ rest

theorem ensures_tellAll (events : List Event) :
    Ensures (answers.host.tellAll events) fun deeds _ => deeds = events.map .tell := by
  induction events with
  | nil => exact ensures_pure rfl
  | cons event events ih =>
      apply (ensures_tell event).bind
      rintro _ _ rfl
      exact ih.imp fun deeds _ rest => congrArg _ rest

end MetricRates.Disk
