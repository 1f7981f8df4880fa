import PencilPuzzle.Fault

/-!
# Room in memory

A set of values takes up a bit for each value that could be in it, and a list an entry for each of
its elements. What does not fit into 63 bits is no size at all, and a size that does may still find
no room: here a set of 2^38 values, or a list of 2^33 entries, finds none.

This is the only limit of a host that is kept, and these constants are those of one host. Where an
operation makes such a set or list, `checkSet` or `checkList` stands before it, and a result that
needs the operation to go on has that check as a side condition. All other resources are without
limit: the memory in use as a whole, and the depth to which calls nest, which is one level for each
guess of a search and for each place of a clued line.
-/

namespace PencilPuzzle.Room

/-- Refuses a size at which no set of values can be stored. -/
def checkSet (size : Int) : Except Fault Unit :=
  if 0x8000000000000000 ≤ size then .error (.size .wideSet)
  else if 0x4000000000 ≤ size then .error (.size .memory)
  else .ok ()

/-- Refuses a size at which no list can be stored. -/
def checkList (size : Int) : Except Fault Unit :=
  if 0x8000000000000000 ≤ size then .error (.size .wideList)
  else if 0x200000000 ≤ size then .error (.size .memory)
  else .ok ()

end PencilPuzzle.Room
