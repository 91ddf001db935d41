import ModemLink.Binary64

/-!
# Libraries of collectors

Measurements that a monitoring system collects are kept by a library of its own: counters, counters
and histograms that are told apart by the values of labels, and a way to gather what all of them
have.  What keeps measurements there is written for any such library.
-/

namespace ModemLink

/-- What a collector shows. -/
inductive Sample where
  | counter (value : Binary64)
  /-- For each bound the number of values not above it, the sum of all and their number. -/
  | histogram (buckets : List (Binary64 × Nat)) (sum : Binary64) (count : Nat)

/-- A sample and the labels that tell it from the others of its family. -/
structure Metric where
  labels : List (String × String)
  sample : Sample

/-- What is collected from one collector. -/
structure Family where
  name : String
  help : String
  metrics : List Metric

/-- A library of collectors.  The values of labels are given in the order in which the labels were
named. -/
structure Collectors where
  Counter : Type
  CounterVec : Type
  HistogramVec : Type
  counter : (name help : String) → Counter
  counterVec : (name help : String) → (labels : List String) → CounterVec
  histogramVec : (name help : String) → (bounds : List Binary64) → (labels : List String) →
    HistogramVec
  increase : Binary64 → Counter → Counter
  increaseAt : (values : List String) → Binary64 → CounterVec → CounterVec
  observeAt : (values : List String) → Binary64 → HistogramVec → HistogramVec
  collectCounter : Counter → Family
  collectCounterVec : CounterVec → Family
  collectHistogramVec : HistogramVec → Family
  /-- What a registry hands out of the families collected from its collectors. -/
  gather : List Family → List Family

end ModemLink
