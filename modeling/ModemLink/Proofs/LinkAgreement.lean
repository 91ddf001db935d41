import ModemLink.Proofs.LinkSessions
import ModemLink.Proofs.Runs

/-!
# Handle, epoch and phase

A bind that was overtaken, by a newer bind or by a death, comes back with a stale cookie.  The epoch
counts the binds begun and the deaths confirmed, so the cookie tells exactly this: it is still the
present epoch if and only if nothing of the kind happened in between.

* `Bookkeeping`, `Run.bookkeeping` -- the statement about a session and what happened to it, and
  that runs keep it;
* `Run.began`, `Run.epoch_eq_cookie_iff` -- when a bind under way began, and what its cookie tells;
* `Ends`, `Run.ends` -- what a bind comes to when it is answered;
* `Agrees`, `Run.agrees` -- handle, epoch and phase agree with what happened.
-/

namespace ModemLink

/-- A link whose death was confirmed is dead, and has no handle. -/
theorem Link.confirmDeath_eq_some {link after : Link} {cookie : Epoch}
    (h : link.confirmDeath cookie = some after) : after.phase = .dead ∧ after.handle = none := by
  unfold Link.confirmDeath at h
  split at h
  · cases h
    exact ⟨rfl, rfl⟩
  · cases h

/-- A bind gives a handle exactly if the radio gave it and the epoch is still its cookie. -/
theorem Link.endBind_eq_ok_iff {link : Link} {cookie : Epoch} {answer : Except LinkFault Handle}
    {live : LiveLink} : (link.endBind cookie answer).1 = .ok live ↔
      answer = .ok live.handle ∧ live.epoch = cookie ∧ link.epoch = cookie := by
  obtain ⟨handle, epoch⟩ := live
  cases answer with
  | error fault => simp [Link.endBind]
  | ok given =>
      by_cases hepoch : link.epoch = cookie
      · simp [Link.endBind, hepoch, eq_comm]
      · simp [Link.endBind, hepoch]

/-- A bind without a handle passes the fault of the radio on, or its handle came too late. -/
theorem Link.endBind_eq_error {link : Link} {cookie : Epoch} {answer : Except LinkFault Handle}
    {fault : LinkFault} (h : (link.endBind cookie answer).1 = .error fault) :
    answer = .error fault ∨ fault = .disconnected ∧ ∃ handle, answer = .ok handle := by
  cases answer with
  | error given =>
      cases h
      exact .inl rfl
  | ok handle =>
      by_cases hepoch : link.epoch = cookie
      · simp [Link.endBind, hepoch] at h
      · simp only [Link.endBind, hepoch, if_false, Except.error.injEq] at h
        exact .inr ⟨h.symm, handle, rfl⟩

namespace LinkSession

variable {s after : LinkSession} {move : LinkMove} {history : LinkHistory} {delay : Duration}

/-! ## What a run keeps -/

/-- The binds under way as the link sees them, whoever they are for. -/
def calls (s : LinkSession) : List Outgoing := s.stack.map fun bind => .bind bind.cookie .connection

/-- The books of a session: the epoch counts what happened, the binds under way fit the link, and a
handle is cached exactly while the link is bound. -/
structure Bookkeeping (history : LinkHistory) (s : LinkSession) : Prop where
  counted : s.link.epoch.number.toNat = history.changes
  anchored : s.link.Anchored history.Granted s.calls
  cached : s.link.handle.isSome ↔ s.link.phase = .bound

/-- A move keeps the binds under way in order, unless it starts the epochs over. -/
theorem Shift.anchored (h : s.Shift move after)
    (hanchored : s.link.Anchored history.Granted s.calls)
    (hnext : after.link.epoch = s.link.epoch.next → s.link.epoch.HasNext) :
    after.link.Anchored (LinkHistory.Granted (⟨s, move, after⟩ :: history)) after.calls := by
  replace hanchored := hanchored.mono fun live hlive =>
    LinkHistory.Granted.cons hlive ⟨s, move, after⟩
  cases h with
  | quiet retryArmed link stack death =>
      rw [calls, link, stack]
      exact hanchored.retry retryArmed
  | begun retryArmed caller link stack death =>
      have hmoved : after.link.epoch = s.link.epoch.next := by rw [link]; rfl
      rw [calls, link, stack]
      exact (hanchored.retry retryArmed).beginBind (hnext hmoved) .connection
  | died link stack death =>
      rw [calls, stack]
      exact hanchored.confirmDeath (hnext (Link.epoch_confirmDeath link)) link
  | @answered retryArmed top answer move_eq link stack =>
      subst move_eq
      rw [calls, stack] at hanchored
      rw [calls, link]
      refine (hanchored.endBind ?_).retry retryArmed
      rintro handle rfl
      exact ⟨_, List.mem_cons_self .., top.caller, rfl⟩
  | abandoned top move_eq link stack cut =>
      rw [calls, stack] at hanchored
      rw [calls, link]
      exact hanchored.tail

/-- A move leaves a handle cached exactly while the link is bound. -/
theorem Shift.cached (h : s.Shift move after) (hanchored : s.link.Anchored history.Granted s.calls)
    (hcached : s.link.handle.isSome ↔ s.link.phase = .bound) :
    after.link.handle.isSome ↔ after.link.phase = .bound := by
  cases h with
  | quiet retryArmed link stack death =>
      rw [link]
      exact hcached
  | begun retryArmed caller link stack death =>
      rw [link]
      simp [Link.beginBind]
  | died link stack death =>
      obtain ⟨hphase, hhandle⟩ := Link.confirmDeath_eq_some link
      simp [hphase, hhandle]
  | @answered retryArmed top answer move_eq link stack =>
      rw [link]
      by_cases hcookie : s.link.epoch = top.cookie
      · have hbinding : s.link.phase = .binding := by
          refine hanchored.binding (.bind top.cookie .connection) ?_ (congrArg some hcookie.symm)
          rw [calls, stack]
          exact List.mem_cons_self ..
        -- A failed bind leaves the handle alone, and there was none.
        have hnone : s.link.handle = none := by
          rw [hbinding] at hcached
          simpa using hcached
        cases answer <;> simp [Link.endBind, hcookie, hnone]
      · rw [Link.endBind_of_stale hcookie]
        exact hcached
  | abandoned top move_eq link stack cut =>
      rw [link]
      exact hcached

/-- While few epochs have passed, a move keeps the books. -/
theorem Shift.bookkeeping (h : s.Shift move after) (books : s.Bookkeeping history)
    (few : LinkHistory.changes (⟨s, move, after⟩ :: history) < UInt64.size) :
    after.Bookkeeping (⟨s, move, after⟩ :: history) := by
  have hcounted := books.counted
  rcases h.epoch history with ⟨hkept, hchanges⟩ | ⟨hmoved, hchanges⟩
  · refine ⟨by rw [hkept, hchanges, hcounted], h.anchored books.anchored fun hmoved => ?_,
      h.cached books.anchored books.cached⟩
    exact absurd (hmoved.symm.trans hkept) (Epoch.next_ne _)
  · have hnext : s.link.epoch.HasNext := by
      rw [Epoch.HasNext, hcounted, ← hchanges]
      exact few
    refine ⟨?_, h.anchored books.anchored fun _ => hnext, h.cached books.anchored books.cached⟩
    rw [hmoved, hchanges, Epoch.toNat_next hnext, hcounted]

/-- As long as the epoch has not started over, the books of every run agree. -/
theorem Run.bookkeeping (run : Run delay history s) (few : history.changes < UInt64.size) :
    s.Bookkeeping history := by
  induction run with
  | start => exact ⟨rfl, .fresh, by simp [LinkSession.start, Link.fresh]⟩
  | @step history s after move run step ih =>
      have hle := LinkHistory.changes_le (List.suffix_cons ⟨s, move, after⟩ history)
      exact step.shift.bookkeeping (ih (Nat.lt_of_le_of_lt hle few)) few

/-- Every bind under way began at some moment, and since then has kept the place it took on top of
the binds that were under way before it. -/
theorem Run.began (run : Run delay history s) {bind : OpenBind} {rest : List OpenBind}
    (hsuffix : bind :: rest <:+ s.stack) :
    ∃ during b earlier, history = during ++ b :: earlier ∧ b.begun = some bind ∧
      b.after.stack = bind :: rest := by
  have hlater {history : LinkHistory} (m : LinkMoment)
      (h : ∃ during b earlier, history = during ++ b :: earlier ∧ b.begun = some bind ∧
        b.after.stack = bind :: rest) :
      ∃ during b earlier, m :: history = during ++ b :: earlier ∧ b.begun = some bind ∧
        b.after.stack = bind :: rest := by
    obtain ⟨during, b, earlier, rfl, hbegun⟩ := h
    exact ⟨m :: during, b, earlier, rfl, hbegun⟩
  induction run with
  | start => simp [LinkSession.start] at hsuffix
  | @step history s after move run step ih =>
      cases step.shift with
      | quiet retryArmed link stack death => exact hlater _ (ih (stack ▸ hsuffix))
      | begun retryArmed caller link stack death =>
          rw [stack, List.suffix_cons_iff] at hsuffix
          obtain htop | hrest := hsuffix
          · cases htop
            exact ⟨[], _, history, rfl, LinkMoment.begun_of_cons stack, stack⟩
          · exact hlater _ (ih hrest)
      | died link stack death => exact hlater _ (ih (stack ▸ hsuffix))
      | answered move_eq link stack =>
          refine hlater _ (ih (hsuffix.trans ?_))
          rw [stack]
          exact List.suffix_cons ..
      | abandoned top move_eq link stack cut =>
          refine hlater _ (ih (hsuffix.trans ?_))
          rw [stack]
          exact List.suffix_cons ..

/-- The cookie of a bind that begins is the epoch it starts. -/
theorem Step.cookie_of_begun (h : s.Step move after) {bind : OpenBind}
    (hbegun : (LinkMoment.mk s move after).begun = some bind) : after.link.epoch = bind.cookie := by
  cases h.shift with
  | begun retryArmed caller link stack death =>
      rw [LinkMoment.begun_of_cons stack] at hbegun
      cases hbegun
      rw [link]
      rfl
  | quiet retryArmed link stack death =>
      rw [LinkMoment.begun_of_stack_eq stack] at hbegun
      cases hbegun
  | died link stack death =>
      rw [LinkMoment.begun_of_stack_eq stack] at hbegun
      cases hbegun
  | answered move_eq link stack =>
      rw [LinkMoment.begun_of_tail stack] at hbegun
      cases hbegun
  | abandoned top move_eq link stack cut =>
      rw [LinkMoment.begun_of_tail stack] at hbegun
      cases hbegun

/-- The cookie of a bind is still the present epoch exactly if no bind has begun and no death was
confirmed since. -/
theorem Run.epoch_eq_cookie_iff {during earlier : LinkHistory} {b : LinkMoment} {bind : OpenBind}
    (run : Run delay (during ++ b :: earlier) s)
    (few : LinkHistory.changes (during ++ b :: earlier) < UInt64.size)
    (hbegun : b.begun = some bind) : s.link.epoch = bind.cookie ↔ during.changes = 0 := by
  obtain ⟨hrun, hstep⟩ := run.split
  have hsplit := LinkHistory.changes_append during (b :: earlier)
  have hnow := (run.bookkeeping few).counted
  have hfew : LinkHistory.changes (b :: earlier) < UInt64.size := by omega
  have hthen : b.after.link.epoch.number.toNat = LinkHistory.changes (b :: earlier) :=
    ((hrun.step hstep).bookkeeping hfew).counted
  have hcookie := hstep.cookie_of_begun hbegun
  constructor
  · intro heq
    rw [heq, ← hcookie] at hnow
    omega
  · intro hnone
    have hnumbers : s.link.epoch.number.toNat = b.after.link.epoch.number.toNat := by omega
    rw [← hcookie]
    exact congrArg Epoch.mk (UInt64.toNat_inj.mp hnumbers)

/-- Unless a call was cut off, the phase does not say binding for longer than the present bind is
under way. -/
theorem Run.mem_stack_of_binding (run : Run delay history s) (uncut : history.Uncut)
    (hphase : s.link.phase = .binding) : ∃ bind ∈ s.stack, bind.cookie = s.link.epoch := by
  induction run with
  | start => cases hphase
  | @step history s after move run step ih =>
      have hcut := run.not_isCut (LinkHistory.uncut_cons.mp uncut).2
      replace ih := ih (LinkHistory.uncut_cons.mp uncut).2
      cases step.shift with
      | quiet retryArmed link stack death =>
          rw [link] at hphase ⊢
          rw [stack]
          exact ih hphase
      | begun retryArmed caller link stack death =>
          rw [stack, link]
          exact ⟨_, List.mem_cons_self .., rfl⟩
      | died link stack death =>
          rw [(Link.confirmDeath_eq_some link).1] at hphase
          cases hphase
      | @answered retryArmed top answer move_eq link stack =>
          rw [link] at hphase ⊢
          by_cases hcookie : s.link.epoch = top.cookie
          · cases answer <;> simp [Link.endBind, hcookie] at hphase
          · rw [Link.endBind_of_stale hcookie] at hphase ⊢
            obtain ⟨bind, hmem, hbind⟩ := ih hphase
            rw [stack, List.mem_cons] at hmem
            obtain rfl | hmem := hmem
            · exact absurd hbind.symm hcookie
            · exact ⟨bind, hmem, hbind⟩
      | abandoned top move_eq link stack cut => exact absurd cut hcut

/-! ## Handle, epoch and phase -/

/-- How a bind ends at the moment it is answered, given what happened while it was under way. -/
structure Ends (during : LinkHistory) (top : OpenBind) (answer : Except LinkFault Handle)
    (m : LinkMoment) (outcome : Except LinkFault LiveLink) : Prop where
  /-- The caller is told, unless the bind came to nothing and the next attempt could not be
  scheduled. -/
  told : m.after.control = top.caller.told outcome ∨ m.after.IsCut ∧ ∃ fault, outcome = .error fault
  /-- The bind succeeds exactly if the radio gave a handle and nothing overtook the bind. -/
  ok_iff : ∀ live, outcome = .ok live ↔
    answer = .ok live.handle ∧ live.epoch = top.cookie ∧ during.changes = 0
  /-- The link of a bind that succeeds is live. -/
  live : ∀ live, outcome = .ok live → m.after.link.current = some live
  /-- Otherwise it comes to the fault of the radio, or the link counts as lost. -/
  error : ∀ fault, outcome = .error fault →
    answer = .error fault ∨ fault = .disconnected ∧ ∃ handle, answer = .ok handle
  /-- A bind that was overtaken leaves the link to what overtook it. -/
  newer : during.changes ≠ 0 →
    m.after.link.phase = m.before.link.phase ∧ m.after.link.handle = m.before.link.handle ∧
      m.after.link.epoch = m.before.link.epoch

/-- The end of a bind, when its cookie tells whether it was overtaken. -/
theorem ends_of_cookie {during : LinkHistory} {top : OpenBind} {answer : Except LinkFault Handle}
    (hcookie : s.link.epoch = top.cookie ↔ during.changes = 0) :
    Ends during top answer ⟨s, move, s.answer top answer⟩ (s.link.endBind top.cookie answer).1 := by
  obtain ⟨⟨retryArmed, hlink⟩, -, htold⟩ := answer_cases s top answer
  refine ⟨htold, fun live => ?_, fun live hlive => ?_, fun fault => Link.endBind_eq_error,
    fun hnewer => ?_⟩
  · rw [← hcookie]
    exact Link.endBind_eq_ok_iff
  · have hcurrent := Link.current_endBind hlive
    rw [hlink]
    exact hcurrent
  · rw [hlink, Link.endBind_of_stale (mt hcookie.mp hnewer)]
    exact ⟨rfl, rfl, rfl⟩

/-- Every bind that is answered began at some moment, on top of the same binds, and it ends by what
happened since. -/
theorem Run.ends {top : OpenBind} {answer : Except LinkFault Handle} (run : Run delay history s)
    (few : history.changes < UInt64.size) (step : s.Step (.answer top answer) after) :
    ∃ during b earlier, history = during ++ b :: earlier ∧ b.begun = some top ∧
      b.after.stack = s.stack ∧
      ∃ outcome, Ends during top answer ⟨s, .answer top answer, after⟩ outcome := by
  obtain ⟨rfl, rest, stack⟩ := step.of_answer
  have htop : top :: rest <:+ s.stack := stack ▸ List.suffix_rfl
  obtain ⟨during, b, earlier, rfl, hbegun, hstack⟩ := run.began htop
  have hcookie := run.epoch_eq_cookie_iff few hbegun
  exact ⟨during, b, earlier, rfl, hbegun, hstack.trans stack.symm, _, ends_of_cookie hcookie⟩

/-- Handle, epoch and phase of a link session agree with what happened to it. -/
structure Agrees (history : LinkHistory) (s : LinkSession) : Prop where
  epoch : s.link.epoch.number.toNat = history.connects + history.deaths
  /-- While the link is bound, the handle is the one that the radio gave for the present epoch. -/
  bound : s.link.phase = .bound →
    ∃ handle, s.link.handle = some handle ∧ history.Granted ⟨handle, s.link.epoch⟩
  unbound : s.link.phase ≠ .bound → s.link.handle = none
  /-- While the bind of the present epoch is under way, the phase says so. -/
  binding : ∀ bind ∈ s.stack, bind.cookie = s.link.epoch → s.link.phase = .binding
  /-- Unless a call was cut off, the phase says so at no other time. -/
  mem_stack : history.Uncut → s.link.phase = .binding →
    ∃ bind ∈ s.stack, bind.cookie = s.link.epoch
  /-- Every bind that was answered ended by what had happened since it began. -/
  ends : ∀ later m before top answer, history = later ++ m :: before →
    m.move = .answer top answer →
      ∃ during b earlier, before = during ++ b :: earlier ∧ b.begun = some top ∧
        b.after.stack = m.before.stack ∧ ∃ outcome, Ends during top answer m outcome

/-- **Handle, epoch and phase agree.**  This holds of every run in which the epoch has not started
over, however deep the binds are nested. -/
theorem Run.agrees (run : Run delay history s) (few : history.changes < UInt64.size) :
    s.Agrees history := by
  have books := run.bookkeeping few
  have hgranted := books.anchored.granted
  refine ⟨books.counted, fun hbound => ?_, fun hother => ?_, fun bind hmem hcookie => ?_,
    run.mem_stack_of_binding, ?_⟩
  · obtain ⟨handle, hhandle⟩ := Option.isSome_iff_exists.mp (books.cached.mpr hbound)
    refine ⟨handle, hhandle, hgranted _ ?_⟩
    simp [Link.current, hbound, hhandle]
  · have hnone := mt books.cached.mp hother
    simpa using hnone
  · refine books.anchored.binding _ (List.mem_map_of_mem hmem) ?_
    rw [hcookie]
    rfl
  · rintro later ⟨s, move, after⟩ before top answer rfl hmove
    obtain ⟨hrun, hstep⟩ := run.split
    obtain rfl : move = .answer top answer := hmove
    have hsuffix : before <:+ later ++ ⟨s, .answer top answer, after⟩ :: before :=
      (List.suffix_cons ..).trans (List.suffix_append ..)
    have hfew := Nat.lt_of_le_of_lt (LinkHistory.changes_le hsuffix) few
    exact hrun.ends hfew hstep

/-- There is a run in which the link dies while its first bind is under way, and the handle that the
radio gives comes too late. -/
theorem exists_run_overtaken :
    ∃ history s, Run (.ofSeconds 4 (by decide)) history s ∧ history.Uncut ∧
      history.connects = 1 ∧ history.deaths = 1 ∧ s.link.phase = .dead ∧
      s.control = .outside (some (.handle (.error .disconnected))) := by
  have started : Run (.ofSeconds 4 (by decide)) [] (.start (.ofSeconds 4 (by decide))) := .start
  have waiting := started.step (.getHandle rfl)
  have died := waiting.step (.confirmDeath ⟨1⟩ rfl)
  have answered := died.step (.answer ⟨⟨1⟩, .outside⟩ (.ok ⟨0⟩) rfl rfl)
  refine ⟨_, _, answered, ?_, rfl, rfl, rfl, rfl⟩
  simp only [LinkHistory.uncut_cons]
  refine ⟨?_, ?_, ?_, by simp [LinkHistory.Uncut]⟩ <;> rintro ⟨overflow, hcut⟩ <;> cases hcut

/-- So the epoch has moved on twice, and there is no handle. -/
theorem agrees_of_overtaken :
    ∃ history s, Run (.ofSeconds 4 (by decide)) history s ∧ history.changes < UInt64.size ∧
      s.Agrees history ∧ history.Uncut ∧ s.link.epoch.number.toNat = 2 ∧
      s.link.phase = .dead ∧ s.link.handle = none ∧
      s.control = .outside (some (.handle (.error .disconnected))) := by
  obtain ⟨history, s, run, uncut, hconnects, hdeaths, hphase, hcontrol⟩ := exists_run_overtaken
  have hchanges : history.changes = 2 := by rw [LinkHistory.changes, hconnects, hdeaths]
  have few : history.changes < UInt64.size := by
    rw [hchanges]
    decide
  have agrees := Run.agrees run few
  exact ⟨history, s, run, few, agrees, uncut, agrees.epoch.trans hchanges, hphase,
    agrees.unbound (by rw [hphase]; simp), hcontrol⟩

/-- Near the end of the clock the timer cannot be armed.  A bind that fails then is cut off instead
of handing its fault to the caller, and a bind that is given up because the call inside it was cut
off leaves the phase at binding, with no bind under way. -/
theorem binding_left_after_cut :
    ∃ history s, Run (.ofSeconds 4 (by decide)) history s ∧ history.changes < UInt64.size ∧
      s.link.phase = .binding ∧ s.stack = [] ∧
      ∃ m ∈ history, ∃ top, m.move = .answer top (.error .disconnected) ∧
        m.after.control ≠ top.caller.told (.error .disconnected) := by
  have started : Run (.ofSeconds 4 (by decide)) [] (.start (.ofSeconds 4 (by decide))) := .start
  have leaving := started.step (.advance (.ofSeconds 18446744073709551615 (by decide)) rfl)
  have late := leaving.step (.fire rfl)
  have waiting := late.step (.getHandle rfl)
  have failed := waiting.step
    (.answer ⟨⟨1⟩, .outside⟩ (.error .disconnected) rfl rfl)
  have again := failed.step (.getHandle rfl)
  have inside := again.step (.advance (.ofSeconds 1 (by decide)) rfl)
  have left := inside.step (.abandon rfl rfl)
  refine ⟨_, _, left, by decide +kernel, rfl, rfl, ?_⟩
  refine ⟨_, List.mem_of_getElem? (i := 3) rfl, ⟨⟨1⟩, .outside⟩, rfl, ?_⟩
  intro htold
  cases htold

end LinkSession

end ModemLink
