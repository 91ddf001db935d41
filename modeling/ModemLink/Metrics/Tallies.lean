import ModemLink.Metrics.Exposition
import ModemLink.Metrics.Tally

/-!
# Tallies as collectors

A library of collectors that keeps tallies and histograms in memory, and the text that is made of
what they show.  A family begins with two lines that say what it is; families stand in the order of
their names and metrics in the order of their label values.  A family without metrics is left out.
-/

namespace ModemLink

/-- A counter. -/
structure PlainCounter where
  name : String
  help : String
  value : Binary64

/-- A tally for the values of some labels. -/
structure LabelledTally where
  name : String
  help : String
  labels : List String
  tally : Tally (List String)

/-- A histogram for each list of values of some labels. -/
structure LabelledHistogram where
  name : String
  help : String
  bounds : List Binary64
  labels : List String
  rows : List (List String × Histogram)

/-- Adds a value to the histogram of some label values. -/
def Histogram.observeRow (bounds : List Binary64) (values : List String) (value : Binary64) :
    List (List String × Histogram) → List (List String × Histogram)
  | [] => [(values, (Histogram.empty bounds).observe bounds value)]
  | (first, histogram) :: rest =>
    if first = values then (first, histogram.observe bounds value) :: rest
    else (first, histogram) :: observeRow bounds values value rest

/-- What a histogram shows. -/
def Histogram.sample (bounds : List Binary64) (histogram : Histogram) : Sample :=
  .histogram (bounds.zip histogram.cumulative) histogram.sum histogram.count

namespace Collectors

/-- Whether texts come in order, compared one after the other. -/
def inOrder : List String → List String → Bool
  | [], _ => true
  | _, [] => false
  | a :: as, b :: bs => if a = b then inOrder as bs else decide (a < b)

/-- The metrics of a family in the order of their label values. -/
def arrange (family : Family) : Family :=
  { family with
    metrics := family.metrics.mergeSort fun a b =>
      inOrder (a.labels.map (·.2)) (b.labels.map (·.2)) }

/-- Tallies in memory as a library of collectors. -/
def tallies : Collectors where
  Counter := PlainCounter
  CounterVec := LabelledTally
  HistogramVec := LabelledHistogram
  counter name help := ⟨name, help, .zero⟩
  counterVec name help labels := ⟨name, help, labels, .empty⟩
  histogramVec name help bounds labels := ⟨name, help, bounds, labels, []⟩
  increase amount c := { c with value := c.value + amount }
  increaseAt values amount c := { c with tally := c.tally.bump values amount }
  observeAt values value c := { c with rows := Histogram.observeRow c.bounds values value c.rows }
  collectCounter c := ⟨c.name, c.help, [⟨[], .counter c.value⟩]⟩
  collectCounterVec c :=
    ⟨c.name, c.help, c.tally.rows.map fun row => ⟨c.labels.zip row.1, .counter row.2⟩⟩
  collectHistogramVec c :=
    ⟨c.name, c.help, c.rows.map fun row => ⟨c.labels.zip row.1, row.2.sample c.bounds⟩⟩
  gather families :=
    ((families.filter fun family => !family.metrics.isEmpty).map arrange).mergeSort fun a b =>
      decide (a.name ≤ b.name)

end Collectors

/-! ## The text of what was gathered -/

/-- The labels in braces, if there are any. -/
def Metric.labelText (labels : List (String × String)) : String :=
  if labels.isEmpty then ""
  else
    let pairs := labels.map fun (name, value) => name ++ "=\"" ++ value ++ "\""
    "\x7b" ++ ",".intercalate pairs ++ "\x7d"

/-- The lines of a metric: one for a counter; for a histogram one for each bound, one without bound,
the sum and the number. -/
def Metric.lines (family : String) (metric : Metric) : String :=
  let line (part : String) (labels : List (String × String)) (value : Binary64) : String :=
    family ++ part ++ labelText labels ++ " " ++ value.text ++ "\n"
  match metric.sample with
  | .counter value => line "" metric.labels value
  | .histogram buckets sum count =>
    let bucket (bound : String) (n : Nat) : String :=
      line "_bucket" (metric.labels ++ [("le", bound)]) (.ofNat n)
    String.join (buckets.map fun (bound, n) => bucket bound.text n) ++ bucket "+Inf" count ++
      line "_sum" metric.labels sum ++ line "_count" metric.labels (.ofNat count)

/-- What sort of collector shows a sample. -/
def Sample.sort : Sample → String
  | .counter _ => "counter"
  | .histogram _ _ _ => "histogram"

/-- The lines of a family; none if it has no metrics. -/
def Family.text (family : Family) : String :=
  match family.metrics with
  | [] => ""
  | metric :: rest =>
    s!"# HELP {family.name} {family.help}\n# TYPE {family.name} {metric.sample.sort}\n" ++
      String.join ((metric :: rest).map (Metric.lines family.name))

/-- The text that is collected. -/
def Exposition.text (x : Exposition .tallies) : String :=
  String.join (x.gathered.map Family.text)

end ModemLink
