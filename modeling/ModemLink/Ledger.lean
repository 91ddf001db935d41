import ModemLink.Pending
import ModemLink.SlotTable
import Std.Data.HashMap

/-!
# The ledger of pending requests

Admitted requests wait here under their serials.  They lie in a slot table, and an index finds the
place of each serial.  A new request gets the first serial from the counter on that no pending
request has.

Main statements: `enroll_fst` and `freeSerial_of_not_contains` tell the choice of a serial; the
ledger's agreement with a plain map is the business of the modules about it.
-/

namespace ModemLink

/-- The pending requests and the counter of serials. -/
structure Ledger where
  table : SlotTable PendingRequest
  /-- The place of each pending serial. -/
  index : Std.HashMap Serial Nat
  counter : SerialCounter

/-- What an acknowledgment of a serial did. -/
inductive AckOutcome where
  /-- The first acknowledgment of a pending request, which hands out its ticket. -/
  | acked (ticket : Option Ticket)
  | duplicate
  | unknown
deriving DecidableEq

namespace Ledger

/-- A ledger without requests. -/
def empty (spareCapacity : Nat) (counter : SerialCounter) : Ledger :=
  ⟨SlotTable.empty spareCapacity, ∅, counter⟩

/-- Issues serials until one is free, and at most one more than `rounds`. -/
def freeSerial (index : Std.HashMap Serial Nat) : Nat → SerialCounter → Serial × SerialCounter
  | 0, counter => counter.issue
  | rounds + 1, counter =>
    if index.contains counter.peek then freeSerial index rounds counter.next else counter.issue

/-- What a caller brings along for a new request. -/
structure Enrollment where
  kind : RequestKind
  target : TargetId
  source : WorkSource
  ticket : Option Ticket
  submittedAt : Duration

/-- Admits a request under a free serial.  There are no more taken serials than pending requests,
so one round more than those finds a free one. -/
def enroll (ledger : Ledger) (request : Enrollment) : Serial × Ledger :=
  let (serial, counter) := freeSerial ledger.index ledger.index.size ledger.counter
  let (slot, table) := ledger.table.insert
    { serial
      kind := request.kind
      target := request.target
      source := request.source
      ticket := request.ticket
      state := .sent
      submittedAt := request.submittedAt }
  (serial, { table, index := ledger.index.insert serial slot, counter })

/-- Takes the request of a serial out.  If the table moved another request into its place, the index
follows. -/
def complete (ledger : Ledger) (serial : Serial) : Option PendingRequest × Ledger :=
  match ledger.index[serial]? with
  | none => (none, ledger)
  | some slot =>
    let index := ledger.index.erase serial
    match ledger.table.remove? slot with
    | none => (none, { ledger with index })
    | some ⟨request, moved, table⟩ =>
      let index :=
        match moved with
        | none => index
        | some (_, target) =>
          match table.get? target with
          | some other => index.insert other.serial target
          | none => index
      (some request, { ledger with table, index })

/-- Notes the first acknowledgment of a serial and hands its ticket out. -/
def markAcked (ledger : Ledger) (serial : Serial) : AckOutcome × Ledger :=
  match ledger.index[serial]? with
  | none => (.unknown, ledger)
  | some slot =>
    match ledger.table.get? slot with
    | none => (.unknown, ledger)
    | some request =>
      match request.state with
      | .acked => (.duplicate, ledger)
      | .sent =>
        (.acked request.ticket,
          { ledger with
            table := ledger.table.modify slot fun request =>
              { request with state := .acked, ticket := none } })

/-- The pending requests in the order of their places. -/
def requests (ledger : Ledger) : List PendingRequest := ledger.table.values

/-- Takes all requests out, the earliest submitted first; requests submitted at the same time keep
the order of their places. -/
def drain (ledger : Ledger) : List PendingRequest × Ledger :=
  let (requests, table) := ledger.table.drain
  (requests.mergeSort fun a b => decide (a.submittedAt ≤ b.submittedAt),
    { ledger with table, index := ∅ })

/-- The pending requests as diagnostics show them. -/
def views (ledger : Ledger) (now : Duration) : List PendingView :=
  (ledger.requests.map (PendingView.ofRequest now)).mergeSort PendingView.le

/-- Whether a request of the serial is pending. -/
def contains (ledger : Ledger) (serial : Serial) : Bool :=
  match ledger.index[serial]? with
  | some slot => (ledger.table.get? slot).isSome
  | none => false

/-- How many requests are pending. -/
def size (ledger : Ledger) : Nat := ledger.table.count

/-- How many vacated places wait for reuse. -/
def spare (ledger : Ledger) : Nat := ledger.table.spare

/-- Starts the counter of serials anew at a drawn seed. -/
def reseed (ledger : Ledger) (entropy : Entropy) : Serial × Ledger × Entropy :=
  let (counter, entropy) := SerialCounter.drawn entropy
  (counter.peek, { ledger with counter }, entropy)

/-- The serial of an admission is the free one that the counter comes to first. -/
theorem enroll_fst (ledger : Ledger) (request : Enrollment) :
    (ledger.enroll request).1 = (freeSerial ledger.index ledger.index.size ledger.counter).1 := rfl

/-- A free serial on the counter is taken at once. -/
theorem freeSerial_of_not_contains {index : Std.HashMap Serial Nat} {counter : SerialCounter}
    (h : index.contains counter.peek = false) (rounds : Nat) :
    freeSerial index rounds counter = counter.issue := by
  cases rounds <;> simp [freeSerial, h]

end Ledger

end ModemLink
