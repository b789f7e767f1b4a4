import ScriptHeap.Identifier
import ScriptHeap.Object.NameTable

/-!
What the heap leaves to the environment it runs in: the hash of names, the texts that are kept
outside of their records, and the order in which the copies of a deep clone pass the write barrier.
-/

namespace ScriptHeap

/-- The decisions of the environment. Nothing that the heap promises depends on which they are. -/
class Environment extends NameHash where
  /-- The text needs storage of its own, outside of its record. -/
  storesText : String → Bool
  /-- The copies of a deep clone in the order in which they pass the barrier. They are given with
  their sources, the latest first. The number of allocations so far tells one clone from another, so
  the order need not be the same for the same copies. -/
  arrange : Nat → List (RecordId × RecordId) → List RecordId
  arrange_perm : ∀ n copies, (arrange n copies).Perm (copies.map (·.2))

@[simp] theorem Environment.mem_arrange [Environment] {n : Nat}
    {copies : List (RecordId × RecordId)} {copy : RecordId} :
    copy ∈ arrange n copies ↔ copy ∈ copies.map (·.2) :=
  (arrange_perm n copies).mem_iff

/-- A text that a string record has room for: up to 23 bytes, or up to 32 newlines followed by up
to 128 spaces. -/
def fitsInline (text : String) : Bool :=
  text.utf8ByteSize ≤ 23 ||
    let spaces := text.toList.drop ((text.toList.take 32).takeWhile (· = '\n')).length
    spaces.all (· = ' ') && spaces.length ≤ 128

/-- An environment to run in. Copies pass the barrier in the order in which they were made. -/
instance Environment.standard : Environment where
  storesText text := !fitsInline text
  arrange _ copies := copies.reverse.map (·.2)
  arrange_perm _ copies := copies.reverse_perm.map (·.2)

end ScriptHeap
