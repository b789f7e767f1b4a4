/-!
The four generations of records, and sets of generations. Every operation on sets is given by its
members, so each has one lemma about `contains`.
-/

namespace ScriptHeap

abbrev Gen := Fin 4

namespace Gen

/-- Where records start. -/
def new : Gen := 0

/-- Promoted once. -/
def young : Gen := 1

/-- Promoted twice. Nothing is promoted further. -/
def old : Gen := 2

/-- Never collected. -/
def eternal : Gen := 3

/-- From the youngest to the eldest. -/
def all : List Gen := [new, young, old, eternal]

/-- The generations up to `g`, youngest first. -/
def upTo (g : Gen) : List Gen := all.filter (· ≤ g)

/-- The generations above `g`, youngest first. -/
def above (g : Gen) : List Gen := all.filter (g < ·)

/-- A number names a generation, and every number past the last one names the eternal one. -/
def clamp (n : Nat) : Gen := ⟨min n 3, by omega⟩

/-- The next elder generation. -/
def next (g : Gen) : Gen := clamp (g.val + 1)

theorem mem_all (g : Gen) : g ∈ all := by
  revert g; decide

theorem mem_upTo {g h : Gen} : h ∈ upTo g ↔ h ≤ g := by
  simp [upTo, mem_all]

theorem mem_above {g h : Gen} : h ∈ above g ↔ g < h := by
  simp [above, mem_all]

end Gen

structure GenSet where
  bits : Vector Bool 4
deriving DecidableEq, Repr

namespace GenSet

def ofPred (p : Gen → Bool) : GenSet := ⟨Vector.ofFn p⟩

def contains (s : GenSet) (g : Gen) : Bool := s.bits.get g

@[simp] theorem contains_ofPred (p : Gen → Bool) (g : Gen) : (ofPred p).contains g = p g :=
  Vector.getElem_ofFn g.isLt

theorem ext_contains {s t : GenSet} (h : ∀ g, s.contains g = t.contains g) : s = t := by
  obtain ⟨s⟩ := s
  obtain ⟨t⟩ := t
  congr 1
  exact Vector.ext fun i hi => h ⟨i, hi⟩

def empty : GenSet := ofPred fun _ => false

instance : EmptyCollection GenSet := ⟨empty⟩

instance : Inhabited GenSet := ⟨empty⟩

def insert (s : GenSet) (g : Gen) : GenSet := ofPred fun h => h = g || s.contains h

def erase (s : GenSet) (g : Gen) : GenSet := ofPred fun h => h ≠ g && s.contains h

def union (s t : GenSet) : GenSet := ofPred fun h => s.contains h || t.contains h

/-- Keeps only the generations above `g`. -/
def eraseUpTo (s : GenSet) (g : Gen) : GenSet := ofPred fun h => g < h && s.contains h

/-- Some generation up to `g` is in the set. -/
def anyUpTo (s : GenSet) (g : Gen) : Bool := (Gen.upTo g).any s.contains

/-- The youngest generation above `g` in the set. -/
def leastAbove? (s : GenSet) (g : Gen) : Option Gen := (Gen.above g).find? s.contains

def ofList (gs : List Gen) : GenSet := ofPred fun g => gs.contains g

/-- The number that stands for one generation in a mask. -/
def bit (n : Nat) : Nat := 1 <<< n

/-- The set as a mask, one bit per generation. -/
def toMask (s : GenSet) : Nat :=
  (Gen.all.filter s.contains).foldr (fun g mask => bit g.val + mask) 0

@[simp] theorem contains_empty (g : Gen) : (∅ : GenSet).contains g = false :=
  contains_ofPred _ g

@[simp] theorem contains_insert (s : GenSet) (g h : Gen) :
    (s.insert g).contains h = (h = g || s.contains h) := contains_ofPred _ h

@[simp] theorem contains_erase (s : GenSet) (g h : Gen) :
    (s.erase g).contains h = (h ≠ g && s.contains h) := contains_ofPred _ h

@[simp] theorem contains_union (s t : GenSet) (h : Gen) :
    (s.union t).contains h = (s.contains h || t.contains h) := contains_ofPred _ h

@[simp] theorem contains_eraseUpTo (s : GenSet) (g h : Gen) :
    (s.eraseUpTo g).contains h = (g < h && s.contains h) := contains_ofPred _ h

@[simp] theorem contains_ofList (gs : List Gen) (h : Gen) :
    (ofList gs).contains h = gs.contains h := contains_ofPred _ h

theorem anyUpTo_iff {s : GenSet} {g : Gen} :
    s.anyUpTo g = true ↔ ∃ h, h ≤ g ∧ s.contains h = true := by
  simp [anyUpTo, Gen.mem_upTo]

end GenSet

end ScriptHeap
