/-!
# Work sources

Whom work is done for: an application, known by its user number and its package.  Lists of sources
are shown in the order `WorkSource.le`: by user number, then by package.
-/

namespace ModemLink

/-- The application a request is made for. -/
structure WorkSource where
  uid : UInt32
  package : String
deriving DecidableEq, Hashable

namespace WorkSource

/-- Work of nobody in particular is charged to the phone application. -/
def phone : WorkSource := ⟨1001, "com.android.phone"⟩

instance : Inhabited WorkSource := ⟨phone⟩

/-- Smaller user number first, then smaller package. -/
def lt (a b : WorkSource) : Bool :=
  decide (a.uid < b.uid) || (decide (a.uid = b.uid) && decide (a.package < b.package))

/-- Not after `b` in the order of sources. -/
def le (a b : WorkSource) : Bool := !lt b a

/-- User number and package, with a colon between them. -/
def label (source : WorkSource) : String := s!"{source.uid}:{source.package}"

/-- The sources in order; equal ones keep their places. -/
def sorted (sources : List WorkSource) : List WorkSource := sources.mergeSort le

end WorkSource

end ModemLink
