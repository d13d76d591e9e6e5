/- source: internal/utils/externaljobinfo/externaljob.go
   digest: The Kubernetes identities a Slurm job records in its admin comment, their
     compact encoding, the two earlier encodings, and the keys made from them. -/

import SlurmBridge.Kube.Objects

set_option autoImplicit false

namespace SlurmBridge.Slurm.Ownership

open Foundation.Text Kube.Objects List

/-- A JSON document.  Member names of an object are taken to be distinct. -/
inductive Json where
  | null
  | bool (b : Bool)
  | num (n : Int)
  | str (s : String)
  | arr (items : List Json)
  | obj (members : List (String × Json))

namespace Json

/-- The member with a name; field names match without regard to ASCII case. -/
def member? (members : List (String × Json)) (name : String) : Option Json :=
  (members.find? (fun m => m.1.toList.map Char.toLower == name.toList.map Char.toLower)).map
    Prod.snd

/-- Decode into a string field: null leaves the zero value. -/
def toText? : Json → Option String
  | .null => some ""
  | .str s => some s
  | _ => none

mutual

def same : Json → Json → Bool
  | .null, .null => true
  | .bool a, .bool b => a == b
  | .num a, .num b => a == b
  | .str a, .str b => a == b
  | .arr as, .arr bs => sameItems as bs
  | .obj as, .obj bs => sameMembers as bs
  | _, _ => false

def sameItems : List Json → List Json → Bool
  | [], [] => true
  | a :: as, b :: bs => same a b && sameItems as bs
  | _, _ => false

def sameMembers : List (String × Json) → List (String × Json) → Bool
  | [], [] => true
  | (name, a) :: as, (name', b) :: bs => name == name' && same a b && sameMembers as bs
  | _, _ => false

end

mutual

theorem same_iff : ∀ a b : Json, same a b = true ↔ a = b
  | .null, b => by cases b <;> simp [same]
  | .bool _, b => by cases b <;> simp [same]
  | .num _, b => by cases b <;> simp [same]
  | .str _, b => by cases b <;> simp [same]
  | .arr as, b => by cases b <;> simp [same, sameItems_iff as]
  | .obj as, b => by cases b <;> simp [same, sameMembers_iff as]

theorem sameItems_iff : ∀ as bs : List Json, sameItems as bs = true ↔ as = bs
  | [], bs => by cases bs <;> simp [sameItems]
  | a :: as, bs => by cases bs <;> simp [sameItems, same_iff a, sameItems_iff as]

theorem sameMembers_iff : ∀ as bs : List (String × Json), sameMembers as bs = true ↔ as = bs
  | [], bs => by cases bs <;> simp [sameMembers]
  | (name, a) :: as, bs => by cases bs <;> simp [sameMembers, same_iff a, sameMembers_iff as, Prod.ext_iff]

end

instance : DecidableEq Json := fun a b => decidable_of_iff _ (same_iff a b)

end Json

/-- Identifies a Kubernetes group across served API versions. -/
structure GroupIdentity where
  apiGroup : String
  kind : String
  ns : String
  name : String
  uid : String
  deriving DecidableEq, Repr

def GroupIdentity.key (g : GroupIdentity) : String :=
  "/".intercalate [g.apiGroup, g.kind, g.ns, g.name, g.uid]

/-- Only the built-in groups and the scheduler-plugins PodGroup have an identity. -/
def hasGroupIdentity (typeMeta : TypeMeta) : Bool :=
  (typeMeta.group == "scheduling.k8s.io" &&
    (typeMeta.kind == "PodGroup" || typeMeta.kind == "CompositePodGroup")) ||
  (typeMeta.group == "scheduling.x-k8s.io" && typeMeta.kind == "PodGroup")

def newGroupIdentity (root : PartialObjectMetadata) : Option GroupIdentity :=
  if hasGroupIdentity root.typeMeta then
    some ⟨root.typeMeta.group, root.typeMeta.kind, root.ns, root.name, root.uid⟩
  else
    none

/-- The identities recorded by one Slurm job.  A Pod is listed as namespace/name/uid,
or as namespace/name by older records. -/
structure ExternalJobInfo where
  pods : List String
  podGroup : Option GroupIdentity
  compositePodGroup : Option GroupIdentity
  deriving DecidableEq, Repr

def podKey (pod : Pod) : String :=
  if pod.uid.text = "" then pod.namespacedName else pod.namespacedName ++ "/" ++ pod.uid.text

structure PodReference where
  ns : String
  name : String
  uid : String
  deriving DecidableEq, Repr

def PodReference.namespacedName (ref : PodReference) : String := ref.ns ++ "/" ++ ref.name

def parsePodKey (key : String) : PodReference :=
  match cut '/' key with
  | (_, _, false) => ⟨"", key, ""⟩
  | (ns, rest, true) =>
    let (name, uid, _) := cut '/' rest
    ⟨ns, name, uid⟩

def groupToJson (g : GroupIdentity) : Json :=
  .obj [("apiGroup", .str g.apiGroup), ("kind", .str g.kind), ("namespace", .str g.ns),
    ("name", .str g.name), ("uid", .str g.uid)]

/-- The compact encoding: all Pod keys in one comma-separated string. -/
def marshalJSON (info : ExternalJobInfo) : Json :=
  .obj ([("pods", .str (",".intercalate info.pods))] ++
    (info.podGroup.toList.map fun g => ("podGroup", groupToJson g)) ++
    (info.compositePodGroup.toList.map fun g => ("compositePodGroup", groupToJson g)))

def groupFromJson : Option Json → Option (Option GroupIdentity)
  | none | some .null => some none
  | some (.obj members) => do
      let text (name : String) := ((Json.member? members name).getD .null).toText?
      some (some ⟨← text "apiGroup", ← text "kind", ← text "namespace", ← text "name", ← text "uid"⟩)
  | some _ => none

/-- Decode the Pod UIDs that older arrays carry beside the namespace/name keys. -/
def podUIDsFromJson : Option Json → Option (List (String × String))
  | none | some .null => some []
  | some (.obj members) => members.mapM fun m => do some (m.1, ← m.2.toText?)
  | some _ => none

def podsFromJson (uids : List (String × String)) : Option Json → Option (List String)
  | none | some .null => some []
  | some (.str joined) => some (if joined = "" then [] else split ',' joined)
  | some (.arr items) => do
      let names ← items.mapM Json.toText?
      some (names.map fun name =>
        match uids.lookup name with
        | some uid => if uid = "" then name else name ++ "/" ++ uid
        | none => name)
  | some _ => none

/-- Decode the compact encoding and both earlier ones. -/
def unmarshalJSON (document : Json) : Option ExternalJobInfo := do
  let members ← match document with
    | .null => some []
    | .obj members => some members
    | _ => none
  let podGroup ← groupFromJson (Json.member? members "podGroup")
  let compositePodGroup ← groupFromJson (Json.member? members "compositePodGroup")
  let uids ← podUIDsFromJson (Json.member? members "podUIDs")
  let pods ← podsFromJson uids (Json.member? members "pods")
  some ⟨pods, podGroup, compositePodGroup⟩

/-- A job's admin comment: absent or not JSON at all, or a JSON document. -/
abbrev AdminComment := Option Json

def ExternalJobInfo.toComment (info : ExternalJobInfo) : AdminComment := some (marshalJSON info)

def parseIntoExternalJobInfo (comment : AdminComment) : Option ExternalJobInfo :=
  comment.bind unmarshalJSON

theorem newGroupIdentity_eq {root : PartialObjectMetadata} {group : GroupIdentity}
    (identity : newGroupIdentity root = some group) :
    group = ⟨root.typeMeta.group, root.typeMeta.kind, root.ns, root.name, root.uid⟩ := by
  simp only [newGroupIdentity] at identity
  split at identity
  · exact (Option.some.inj identity).symm
  · cases identity

theorem newGroupIdentity_isSome (root : PartialObjectMetadata) :
    (newGroupIdentity root).isSome = hasGroupIdentity root.typeMeta := by
  unfold newGroupIdentity
  split
  · rename_i supported
    simp [supported]
  · rename_i unsupported
    simp [unsupported]

theorem podKey_noComma (pod : Pod) : ',' ∉ (podKey pod).toList := by
  have ns := pod.ns.noComma
  have name := pod.name.noComma
  have uid := pod.uid.noComma
  unfold podKey Pod.namespacedName
  split <;> simp [ns, name, uid]

theorem podKey_ne_empty (pod : Pod) : podKey pod ≠ "" := by
  intro empty
  have spread := congrArg String.toList empty
  unfold podKey Pod.namespacedName at spread
  split at spread <;> simp at spread

theorem parsePodKey_podKey (pod : Pod) :
    parsePodKey (podKey pod) = ⟨pod.ns.text, pod.name.text, pod.uid.text⟩ := by
  have slash : "/" = String.singleton '/' := by decide
  unfold podKey Pod.namespacedName
  split
  · rename_i noUid
    rw [parsePodKey, slash, cut_separated pod.ns.noSlash]
    simp [cut_free pod.name.noSlash, noUid]
  · have regroup : pod.ns.text ++ "/" ++ pod.name.text ++ "/" ++ pod.uid.text =
        pod.ns.text ++ String.singleton '/' ++ (pod.name.text ++ String.singleton '/' ++ pod.uid.text) := by
      simp only [slash, String.append_assoc]
    rw [parsePodKey, regroup, cut_separated pod.ns.noSlash]
    simp only [cut_separated pod.name.noSlash]

theorem podKey_injective {pod other : Pod} (equal : podKey pod = podKey other) :
    pod.ns = other.ns ∧ pod.name = other.name ∧ pod.uid = other.uid := by
  have parsed := congrArg parsePodKey equal
  simp only [parsePodKey_podKey, PodReference.mk.injEq] at parsed
  exact ⟨Segment.text_injective parsed.1, Segment.text_injective parsed.2.1, Segment.text_injective parsed.2.2⟩

@[simp] theorem groupFromJson_none : groupFromJson none = some none := rfl

@[simp] theorem podUIDsFromJson_none : podUIDsFromJson none = some [] := rfl

@[simp] theorem groupFromJson_groupToJson (g : GroupIdentity) :
    groupFromJson (some (groupToJson g)) = some (some g) := by
  simp [groupFromJson, groupToJson, Json.member?, Json.toText?]

theorem podsFromJson_joined {uids : List (String × String)} {pods : List String}
    (nonempty : ∀ key ∈ pods, key ≠ "") (noComma : ∀ key ∈ pods, ',' ∉ key.toList) :
    podsFromJson uids (some (.str (",".intercalate pods))) = some pods := by
  have comma : "," = String.singleton ',' := by decide
  simp only [podsFromJson, comma]
  split
  · rename_i empty
    rcases intercalate_eq_empty ',' empty with none | one
    · rw [none]
    · exact absurd rfl (nonempty "" (by simp [one]))
  · rename_i joined
    rw [split_intercalate ',' _ noComma]
    rintro rfl
    simp at joined

theorem unmarshalJSON_marshalJSON {info : ExternalJobInfo}
    (nonempty : ∀ key ∈ info.pods, key ≠ "") (noComma : ∀ key ∈ info.pods, ',' ∉ key.toList) :
    unmarshalJSON (marshalJSON info) = some info := by
  have pods : podsFromJson [] (some (.str (",".intercalate info.pods))) = some info.pods :=
    podsFromJson_joined nonempty noComma
  obtain ⟨keys, podGroup, compositePodGroup⟩ := info
  cases podGroup <;> cases compositePodGroup <;>
    simp [unmarshalJSON, marshalJSON, Json.member?, pods]

def equal (info other : ExternalJobInfo) : Bool := marshalJSON info = marshalJSON other

section
variable {pods : List Pod} {podGroup compositePodGroup : Option GroupIdentity}

def infoOf (pods : List Pod) (podGroup compositePodGroup : Option GroupIdentity) : ExternalJobInfo :=
  ⟨pods.map podKey, podGroup, compositePodGroup⟩

/-- The earlier encodings: an array of keys, beside which a map of UIDs can stand. -/
def arrayJSON (keys : List String) (uids : Option (List (String × String)))
    (podGroup compositePodGroup : Option GroupIdentity) : Json :=
  .obj ([("pods", .arr (keys.map .str))] ++
    (uids.toList.map fun uids => ("podUIDs", .obj (uids.map fun e => (e.1, .str e.2)))) ++
    (podGroup.toList.map fun g => ("podGroup", groupToJson g)) ++
    (compositePodGroup.toList.map fun g => ("compositePodGroup", groupToJson g)))

/-- The map has the UIDs of the Pods under their namespace/name keys. -/
structure HoldsUIDs (uids : List (String × String)) (pods : List Pod) : Prop where
  distinct : (uids.map Prod.fst).Nodup
  uid : ∀ pod ∈ pods, (uids.lookup pod.namespacedName).getD "" = pod.uid.text

def GroupIdentity.parts (g : GroupIdentity) : List String := [g.apiGroup, g.kind, g.ns, g.name, g.uid]

theorem GroupIdentity.key_injective {g g' : GroupIdentity} (free : ∀ part ∈ g.parts ++ g'.parts, '/' ∉ part.toList)
    (same : g.key = g'.key) : g = g' := by
  have joined : ∀ g : GroupIdentity, g.key = (String.singleton '/').intercalate g.parts := fun _ => rfl
  have pieces := congrArg (split '/') same
  rw [joined, joined, split_intercalate _ (by simp [parts]) fun part own => free part (mem_append_left _ own),
    split_intercalate _ (by simp [parts]) fun part own => free part (mem_append_right _ own)] at pieces
  cases g
  cases g'
  simpa [parts] using pieces

private theorem mapM_map_some {α β : Type} {f : α → β} {g : β → Option α} (inverse : ∀ a, g (f a) = some a)
    (l : List α) : (l.map f).mapM g = some l := by
  induction l with
  | nil => rfl
  | cons a l ih => simp [inverse, ih]

private theorem unmarshalJSON_arrayJSON {keys : List String} {uids : Option (List (String × String))} :
    unmarshalJSON (arrayJSON keys uids podGroup compositePodGroup) =
      some ⟨keys.map fun key => if ((uids.getD []).lookup key).getD "" = "" then key
        else key ++ "/" ++ ((uids.getD []).lookup key).getD "", podGroup, compositePodGroup⟩ := by
  have names : (keys.map Json.str).mapM Json.toText? = some keys := @mapM_map_some _ _ Json.str _ (fun _ => rfl) keys
  have read : ∀ uids : List (String × String), podUIDsFromJson (some (.obj (uids.map fun e => (e.1, .str e.2)))) =
      some uids :=
    fun uids => @mapM_map_some _ _ (fun e : String × String => (e.1, Json.str e.2)) _ (fun _ => rfl) uids
  have rewritten : ∀ uids : List (String × String), podsFromJson uids (some (.arr (keys.map .str))) =
      some (keys.map fun key => if (uids.lookup key).getD "" = "" then key
        else key ++ "/" ++ (uids.lookup key).getD "") := by
    intro uids
    rw [podsFromJson, names]
    refine congrArg some (map_congr_left fun key _ => ?_)
    cases uids.lookup key <;> simp
  cases uids <;> cases podGroup <;> cases compositePodGroup <;>
    simp [unmarshalJSON, arrayJSON, Json.member?, read, rewritten]

private theorem lookup_uid (distinct : (pods.map (·.namespacedName)).Nodup) {pod : Pod} (member : pod ∈ pods) :
    (pods.map fun pod => (pod.namespacedName, pod.uid.text)).lookup pod.namespacedName = some pod.uid.text := by
  induction pods with
  | nil => cases member
  | cons first rest ih =>
    rw [map_cons, nodup_cons] at distinct
    rcases mem_cons.mp member with rfl | later
    · simp
    · have differs : (pod.namespacedName == first.namespacedName) = false := by
        rw [beq_eq_false_iff_ne]
        exact fun same => distinct.1 (mem_map.mpr ⟨pod, later, same⟩)
      rw [map_cons, lookup_cons, differs]
      exact ih distinct.2 later

/-- All encodings of the Pods and groups of a job are read as the same keys and groups, from which Pods and
groups are recovered. -/
theorem encodings_agree (pods : List Pod) (podGroup compositePodGroup : Option GroupIdentity) :
    parseIntoExternalJobInfo (infoOf pods podGroup compositePodGroup).toComment =
      some (infoOf pods podGroup compositePodGroup) ∧
    parseIntoExternalJobInfo (some (arrayJSON (pods.map podKey) none podGroup compositePodGroup)) =
      some (infoOf pods podGroup compositePodGroup) ∧
    (∀ uids, HoldsUIDs uids pods → parseIntoExternalJobInfo
        (some (arrayJSON (pods.map (·.namespacedName)) (some uids) podGroup compositePodGroup)) =
      some (infoOf pods podGroup compositePodGroup)) ∧
    ((pods.map (·.namespacedName)).Nodup → HoldsUIDs (pods.map fun pod => (pod.namespacedName, pod.uid.text)) pods) ∧
    (∀ pod : Pod, parsePodKey (podKey pod) = ⟨pod.ns.text, pod.name.text, pod.uid.text⟩) ∧
    (∀ pod other : Pod, podKey pod = podKey other → pod.ns = other.ns ∧ pod.name = other.name ∧ pod.uid = other.uid) ∧
    (∀ g g' : GroupIdentity, (∀ part ∈ g.parts ++ g'.parts, '/' ∉ part.toList) → g.key = g'.key → g = g') ∧
    ∀ pods' podGroup' compositePodGroup',
      equal (infoOf pods podGroup compositePodGroup) (infoOf pods' podGroup' compositePodGroup') = true ↔
        pods.map podKey = pods'.map podKey ∧ podGroup = podGroup' ∧ compositePodGroup = compositePodGroup' := by
  have compact : ∀ pods podGroup compositePodGroup, unmarshalJSON (marshalJSON (infoOf pods podGroup compositePodGroup)) =
      some (infoOf pods podGroup compositePodGroup) := by
    intro pods podGroup compositePodGroup
    refine unmarshalJSON_marshalJSON (fun key inside => ?_) fun key inside => ?_
    all_goals obtain ⟨pod, -, rfl⟩ := mem_map.mp inside
    · exact podKey_ne_empty pod
    · exact podKey_noComma pod
  refine ⟨compact _ _ _, ?_, ?_, ?_, parsePodKey_podKey, fun _ _ => podKey_injective, fun _ _ => GroupIdentity.key_injective, ?_⟩
  · exact unmarshalJSON_arrayJSON.trans (by simp [infoOf])
  · intro uids holds
    refine unmarshalJSON_arrayJSON.trans ?_
    rw [map_map, infoOf, Option.some.injEq, ExternalJobInfo.mk.injEq]
    refine ⟨map_congr_left fun pod member => ?_, rfl, rfl⟩
    simp [holds.uid pod member, podKey]
  · intro distinct
    refine ⟨by simpa [Function.comp_def] using distinct, fun pod member => ?_⟩
    rw [lookup_uid distinct member]
    rfl
  · intro pods' podGroup' compositePodGroup'
    rw [equal, decide_eq_true_iff]
    constructor
    · intro same
      have read := congrArg unmarshalJSON same
      rw [compact, compact, Option.some.injEq] at read
      simpa [infoOf] using read
    · rintro ⟨keys, rfl, rfl⟩
      rw [infoOf, keys]
      rfl

end

end SlurmBridge.Slurm.Ownership
