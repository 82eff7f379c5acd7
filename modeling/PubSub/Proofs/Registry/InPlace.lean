import PubSub.Proofs.Registry.Wording
import PubSub.Registry.Call
/-!
# A registry changed in place

How a program keeps a registry: what is declared lies in memory and is changed where it lies, one setting after another.
What a declaration has changed by the time it is refused stays changed. So a declaration never works on what is stored
for its topic but on a draft, a copy with rules and metadata of its own, and the draft becomes what is stored once
nothing can refuse the declaration any more.
-/
namespace PubSub

/-- What is declared for a topic, as it lies in memory. Its rules and its metadata lie elsewhere. -/
structure Draft where
  key : TopicKey
  rulesAt : Nat
  metadataAt : Nat
  defaultPath? : Option Text := none
  deadLetter? : Option Text := none
  bulk? : Option BulkSettings := none

/-- The subscription that a draft is with its rules and its metadata. -/
def Draft.holding (d : Draft) (rules : List RoutingRule) (metadata : List (Text × Text)) : Subscription where
  key := d.key
  rules := rules
  defaultPath? := d.defaultPath?
  deadLetter? := d.deadLetter?
  metadata := metadata
  bulk? := d.bulk?

/-- What a setting is in a draft, if it is given. -/
def Draft.setting? (d : Draft) : Setting → Option Text
  | .defaultPath => d.defaultPath?
  | .deadLetter => d.deadLetter?

/-- The draft with a setting. -/
def Draft.withSetting (d : Draft) (x : Setting) (t : Text) : Draft :=
  match x with
  | .defaultPath => { d with defaultPath? := some t }
  | .deadLetter => { d with deadLetter? := some t }

/-- Everything that was ever laid down, and where what is stored for each topic lies. -/
structure Memory where
  ruleLists : List (List RoutingRule) := []
  mappings : List (List (Text × Text)) := []
  drafts : List Draft := []
  topics : List (TopicKey × Nat) := []

/-- Why a call does not come to its end. -/
inductive Refusal
  | config (error : ConfigError)
  /-- The message of an error would show an integer that cannot be written out. -/
  | unwordable
  /-- Nothing lies where something is looked for. -/
  | dangling

/-- An error that is raised. -/
def Refusal.of (c : ConfigError) : Refusal := if c.IsWordable then .config c else .unwordable

/-- What is done to the memory stays done, whether the end is reached or not. -/
abbrev Action := ExceptT Refusal (StateM Memory)

def Action.on {α : Type} (a : Action α) (m : Memory) : Except Refusal α × Memory := a.run.run m

namespace Memory

def empty : Memory := {}

/-- What lies at a place, with its rules and its metadata. -/
def subscription? (m : Memory) (place : Nat) : Option Subscription := do
  let d ← m.drafts[place]?
  let rules ← m.ruleLists[d.rulesAt]?
  let metadata ← m.mappings[d.metadataAt]?
  return d.holding rules metadata

/-- The registry that lies in memory. -/
def view (m : Memory) : Registry := ⟨m.topics.filterMap fun p => m.subscription? p.2⟩

/-! ## Single actions -/

section Actions
variable {α : Type}

def check (x : Except ConfigError α) : Action α :=
  match x with
  | .ok a => pure a
  | .error c => throw (.of c)

def read (look : Memory → Option α) : Action α := do
  match look (← get) with
  | some a => return a
  | none => throw .dangling

end Actions

/-- A subscription laid down at places that are new, those of its rules and of its metadata too. -/
def layDown (s : Subscription) : Action Nat :=
  modifyGet fun m => (m.drafts.length,
    { m with
      ruleLists := m.ruleLists ++ [s.rules]
      mappings := m.mappings ++ [s.metadata]
      drafts := m.drafts ++ [⟨s.key, m.ruleLists.length, m.mappings.length, s.defaultPath?, s.deadLetter?, s.bulk?⟩] })

/-- A copy of what is stored for a topic, or an empty draft. -/
def draftOf (key : TopicKey) : Action Nat := do
  match Assoc.find? key (← get).topics with
  | some place =>
    let s ← read fun m => m.subscription? place
    layDown s
  | none => layDown { key }

/-- What lies at a place becomes what is stored for the topic. -/
def install (key : TopicKey) (place : Nat) : Action Unit :=
  modify fun m => { m with topics := Assoc.insert key place m.topics }

/-! ## Settings of a draft -/

section Settings
variable (place : Nat)

def addRule (r : RoutingRule) : Action Unit := do
  let d ← read fun m => m.drafts[place]?
  let rules ← read fun m => m.ruleLists[d.rulesAt]?
  match rules.find? fun x => x.priority = r.priority with
  | some existing => check (.error (.conflict d.key (.priority existing r)))
  | none => modify fun m => { m with ruleLists := m.ruleLists.set d.rulesAt (rules ++ [r]) }

def declareRule (r : RoutingRule) : Action Unit := do
  let d ← read fun m => m.drafts[place]?
  let rules ← read fun m => m.ruleLists[d.rulesAt]?
  if r ∈ rules then return () else addRule place r

def writeDraft (d : Draft) : Action Unit := modify fun m => { m with drafts := m.drafts.set place d }

/-- A setting that is given again as what it is is written again. -/
def give (x : Setting) (v : Value) : Action Unit := do
  let t ← check (requireText x.argument v)
  let d ← read fun m => m.drafts[place]?
  match d.setting? x with
  | none => writeDraft place (d.withSetting x t)
  | some current =>
    if current = t then writeDraft place (d.withSetting x t)
    else check (.error (.conflict d.key (x.conflict current t)))

def setDefaultPath (path : Value) : Action Unit := give place .defaultPath path

def setDeadLetter (topic : Value) : Action Unit := give place .deadLetter topic

def mergeMetadata (metadata : Value) : Action Unit := do
  match metadata.entries? with
  | none => check (.error (.notMetadata metadata))
  | some entries =>
    let d ← read fun m => m.drafts[place]?
    let pairs ← check (entries.mapM (Subscription.checkPair d.key))
    let merged ← read fun m => m.mappings[d.metadataAt]?
    modify fun m => { m with mappings := m.mappings.set d.metadataAt (Assoc.insertAll pairs merged) }

def setBulk (settings : Value) : Action Unit := do
  match BulkSettings.ofValue? settings with
  | none => check (.error (.notBulkSettings settings))
  | some b =>
    let d ← read fun m => m.drafts[place]?
    writeDraft place { d with bulk? := some b }

def declareRoute (d : Declaration) : Action Unit :=
  if d.condition.IsGiven then do
    let r ← check (RoutingRule.ofValues d.route d.condition d.priority)
    declareRule place r
  else setDefaultPath place d.route

end Settings

/-! ## Calls -/

/-- One setting of a draft after another, each of which may refuse the declaration. -/
def declare (place : Nat) (d : Declaration) : Action Unit := do
  declareRoute place d
  if d.deadLetter.IsGiven then setDeadLetter place d.deadLetter
  if d.metadata.IsGiven then mergeMetadata place d.metadata
  match d.bulk with
  | .none => return ()
  | bulk => setBulk place bulk

def register (d : Declaration) : Action TopicKey := do
  let key ← check (TopicKey.ofValues d.pubsub d.topic)
  let place ← draftOf key
  declare place d
  install key place
  return key

def call : Call → Action (Option TopicKey)
  | .register d => some <$> register d
  | .clear => do
    modify fun m => { m with topics := [] }
    return none

/-- The memory after some calls, one after another. -/
def callAll (m : Memory) (cs : List Call) : Memory := cs.foldl (fun m c => ((call c).on m).2) m

end Memory

end PubSub
