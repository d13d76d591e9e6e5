/- source: internal/dra/profile.go, registry.go, gres.go
   digest: Device profiles, the generic resources that stand for them in Slurm, and the profile of
     a DeviceClass. -/

import SlurmBridge.Inventory.Allocation
import SlurmBridge.Kube.Reads

set_option autoImplicit false

namespace SlurmBridge.Dra.Profiles

open Foundation.Checked Kube.Reads
open Inventory.Allocation (DeviceClass)

/-- How Slurm represents and enforces the devices of a profile. -/
inductive Backend
  | coreBitmap
  | indexedGRES (gresName : String)
  deriving DecidableEq, Repr

def Backend.text : Backend → String
  | .coreBitmap => "core-bitmap"
  | .indexedGRES _ => "indexed-gres"

/-- A pool of devices that Slurm can enforce.  A DeviceClass resolves to the profile whose selector
it has. -/
structure DeviceProfile where
  name : String
  driver : String
  selector : String
  backend : Backend
  deriving DecidableEq

/-- A generic resource of Slurm by name and type.  The type may be empty. -/
structure GenericResource where
  name : String
  type : String
  deriving DecidableEq, Inhabited

def isFramed (isEnd isInner : Char → Bool) (text : String) : Bool :=
  text.toList.all isInner && text.toList.head?.any isEnd && text.toList.getLast?.any isEnd

def isProfileName (text : String) : Bool :=
  isFramed Char.isAlphanum (fun c => c.isAlphanum || c == '_' || c == '.' || c == '-') text

def isDNS1123Label (text : String) : Bool :=
  isFramed (fun c => c.isLower || c.isDigit) (fun c => c.isLower || c.isDigit || c == '-') text &&
    decide (text.utf8ByteSize ≤ 63)

/-- Leaves space for the largest suffix of a claim's request name. -/
def indexedGRESNameMaxLength : Nat := 63 - 1 - 2

namespace DeviceProfile

def usesCoreBitmap (p : DeviceProfile) : Bool := p.backend == .coreBitmap

def usesIndexedGRES (p : DeviceProfile) : Bool :=
  match p.backend with
  | .indexedGRES _ => true
  | .coreBitmap => false

def gres (p : DeviceProfile) : Except String GenericResource :=
  match p.backend with
  | .coreBitmap => .error ("device profile " ++ p.name.quote ++ " has unsupported backend")
  | .indexedGRES gresName => do
      require (gresName ≠ "") ("device profile " ++ p.name.quote ++ " has an empty Slurm GRES name")
      require (gresName.utf8ByteSize ≤ indexedGRESNameMaxLength) ("device profile " ++ p.name.quote ++
        " Slurm GRES name " ++ gresName.quote ++ " exceeds the maximum length of 60 characters")
      require (isDNS1123Label gresName) ("device profile " ++ p.name.quote ++ " has invalid Slurm GRES name " ++
        gresName.quote ++ ": it must be a Kubernetes DNS-1123 label because it is also used as a DRA request name")
      require (p.name ≠ "") ("device profile for driver " ++ p.driver.quote ++ " has an empty name")
      require (isProfileName p.name) ("device profile name " ++ p.name.quote ++ " is not a valid Slurm GRES type")
      return ⟨gresName, p.name⟩

end DeviceProfile

/-- The profiles that a registry accepted. -/
structure Registry where
  profiles : List DeviceProfile
  names : (profiles.map DeviceProfile.name).Nodup
  selectors : (profiles.map DeviceProfile.selector).Nodup
  /-- Each profile of generic resources has one. -/
  resources : ∀ p ∈ profiles, p.usesIndexedGRES = true → p.gres.isOk = true

def Registry.empty : Registry := ⟨[], List.nodup_nil, List.nodup_nil, nofun⟩

namespace Registry

def lookupBySelector (registry : Registry) (selector : String) : Option DeviceProfile :=
  registry.profiles.find? (·.selector == selector)

def profilesForDriver (registry : Registry) (driver : String) : List DeviceProfile :=
  (registry.profiles.filter (·.driver = driver)).insertionSort fun a b => a.name ≤ b.name

def matchDeviceClass (registry : Registry) (name : String) (deviceClass : DeviceClass) :
    Except String DeviceProfile :=
  match deviceClass.selectors with
  | [some expression] =>
    present ("device class " ++ name.quote ++ " selector does not match a supported device profile")
      (registry.lookupBySelector expression)
  | [none] => .error ("device class " ++ name.quote ++ " selector must be a CEL selector")
  | _ => .error ("device class " ++ name.quote ++ " must have exactly one selector")

end Registry

/-- The profiles and the DeviceClasses of a cluster. -/
structure Classes where
  registry : Registry
  deviceClass : String → Except KubeError DeviceClass

def resolveDeviceClass (classes : Classes) (className : String) : Except String DeviceProfile :=
  match classes.deviceClass className with
  | .error .notFound => .error ("DeviceClass " ++ className.quote ++ " was not found")
  | .error e => .error ("get DeviceClass " ++ className.quote ++ ": " ++ e.message)
  | .ok deviceClass => classes.registry.matchDeviceClass className deviceClass

section
variable {registry : Registry} {classes : Classes} {p p' : DeviceProfile} {g : GenericResource}

theorem resolveDeviceClass_mem {className : String} (resolved : resolveDeviceClass classes className = .ok p) :
    p ∈ classes.registry.profiles := by
  unfold resolveDeviceClass at resolved
  split at resolved
  · cases resolved
  · cases resolved
  · unfold Registry.matchDeviceClass at resolved
    split at resolved
    · rw [present_eq_ok] at resolved
      exact List.mem_of_find?_eq_some resolved
    · cases resolved
    · cases resolved

theorem gres_type (has : p.gres = .ok g) : g.type = p.name ∧ p.name ≠ "" := by
  unfold DeviceProfile.gres at has
  split at has
  · cases has
  · simp only [bind_eq_ok, require_eq_ok, pure_eq_ok] at has
    obtain ⟨-, -, -, -, -, -, -, named, -, -, rfl⟩ := has
    exact ⟨rfl, named⟩

theorem gres_injective (inside : p ∈ registry.profiles) (inside' : p' ∈ registry.profiles)
    (has : p.gres = .ok g) (has' : p'.gres = .ok g) : p = p' :=
  List.inj_on_of_nodup_map registry.names inside inside' ((gres_type has).1.symm.trans (gres_type has').1)

theorem usesIndexedGRES_of_gres (has : p.gres = .ok g) : p.usesIndexedGRES = true := by
  unfold DeviceProfile.gres at has
  unfold DeviceProfile.usesIndexedGRES
  split at has
  · cases has
  · rename_i backend
    rw [backend]

end

end SlurmBridge.Dra.Profiles
