import TileCourse.Storage.Repository

/-!
# Profiles in memory
-/

namespace TileCourse

/-- A repository in memory: the profiles by their ids. -/
structure Memory where
  profiles : Table Profile

namespace Memory

/-- The repository without profiles. -/
def empty : Memory := ⟨.empty⟩

/-- Whether there is a profile under an id. -/
def contains (memory : Memory) (id : String) : Bool := memory.profiles.contains id

/-- Take the profile under an id away. -/
def remove (memory : Memory) (id : String) : Memory := ⟨memory.profiles.erase id⟩

/-- The number of profiles. -/
def size (memory : Memory) : Nat := memory.profiles.size

instance : Repository Memory where
  load memory id := .ok (memory.profiles.get? id)
  save memory profile := .ok ⟨memory.profiles.insert profile.id profile⟩

end Memory

end TileCourse
