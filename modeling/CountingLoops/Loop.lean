import CountingLoops.NonemptyList

/-!
Three forms of one loop, each counting from one up to an inclusive bound. A form is described by
the counters for which its body runs: the pre-test and the post-test loop own a counter that ends
above the bound, so they also say where it stopped; the counted loop never steps past its last
value. Bounds have sixteen bits and the counters of the first two forms thirty-two, so that a
counter above the greatest bound is still a counter.
-/

namespace CountingLoops.Loop

/-- The counters for which a loop's body ran, and the counter whose test ended the loop. -/
structure Course (α : Type) where
  visited : α
  exit : UInt32

/-- Counts on from `counter`, adding each counter up to `bound` to `visited`, and stops at the
first one above it. -/
def whileAtMost (bound : UInt16) (counter : UInt32) (visited : Array UInt32) :
    Array UInt32 × UInt32 :=
  if counter ≤ bound.toUInt32 then whileAtMost bound (counter + 1) (visited.push counter)
  else (visited, counter)
termination_by bound.toNat + 1 - counter.toNat
decreasing_by
  have hc : counter.toNat ≤ bound.toNat :=
    bound.toNat_toUInt32 ▸ UInt32.le_iff_toNat_le.mp ‹_›
  have hb := bound.toNat_lt
  have : (counter + 1).toNat = counter.toNat + 1 := by
    rw [UInt32.toNat_add, UInt32.toNat_one]
    omega
  omega

/-- The test comes before each run of the body, so a bound of zero visits nothing. -/
def preTest (bound : UInt16) : Course (List UInt32) :=
  let (visited, exit) := whileAtMost bound 1 #[]
  ⟨visited.toList, exit⟩

/-- The body runs for one before the first test, whatever the bound. -/
def postTest (bound : UInt16) : Course (NonemptyList UInt32) :=
  let (visited, exit) := whileAtMost bound 2 #[]
  ⟨⟨1, visited.toList⟩, exit⟩

/-- Adds the numbers from `first` to `last` to `visited`. It steps only from a number below
`last`, so a range that ends at the greatest word ends as well. -/
def fromTo (first last : UInt16) (visited : Array UInt16) : Array UInt16 :=
  if first < last then fromTo (first + 1) last (visited.push first)
  else if first = last then visited.push first
  else visited
termination_by last.toNat - first.toNat
decreasing_by
  have hlt : first.toNat < last.toNat := UInt16.lt_iff_toNat_lt.mp ‹_›
  have hl := last.toNat_lt
  have : (first + 1).toNat = first.toNat + 1 := by
    rw [UInt16.toNat_add, UInt16.toNat_one]
    omega
  omega

/-- One run of the body for each number from one to the bound. -/
def counted (bound : UInt16) : List UInt16 :=
  (fromTo 1 bound #[]).toList

end CountingLoops.Loop
