import Lightbringer.Overlay.Sim.WorldOrder

/-!
# No node of the simulated world is left waiting

Timers are set, replaced and given up by number, and hosts go down and come back. A node on a host that is up is
nevertheless always woken for its deadline, at most the least advance of a timer late.
-/

namespace Lightbringer.Overlay.Sim
open Machine PortMap

variable {N G R : Type} (ops : NodeOps N)

namespace SimWorld

/-- The wake-up that `reschedule_timer` may still set: by its deadline, or the least advance from now. -/
def Promised (world : SimWorld N G R) (host : Host N G R) : Prop :=
  host.up = true → ∀ node, host.kind = .node node → ∀ deadline, ops.pollTimeout node = some deadline →
    ∃ due, host.nextTimer = some due ∧
      due.toNat ≤ max (deadline - world.base) (world.agenda.now.toNat + timerMinAdvance.toNat)

/-- The timer that a host counts on is on the agenda. `busy` is the host whose timer is about to be set. -/
structure Wakes (busy : Option HostId) (world : SimWorld N G R) : Prop where
  queued : ∀ (id : HostId) host due, world.hosts[id]? = some host → host.nextTimer = some due →
    ∃ entry ∈ world.agenda.entries, entry.event = .timer id host.timerGeneration ∧ entry.due = due
  down : ∀ (id : HostId) host, world.hosts[id]? = some host → host.up = false → host.nextTimer = none
  promised : ∀ (id : HostId) host, world.hosts[id]? = some host → busy ≠ some id → Promised ops world host

section
variable {ops} {least : Nat} {touched busy : Option HostId} {world world' : SimWorld N G R} {id : HostId}

theorem Promised.later {host : Host N G R} (promised : Promised ops world host) (base : world'.base = world.base)
    (forward : world.agenda.now ≤ world'.agenda.now) : Promised ops world' host := by
  intro up node kind deadline wanted
  obtain ⟨due, timer, within⟩ := promised up node kind deadline wanted
  refine ⟨due, timer, within.trans ?_⟩
  rw [base]
  exact max_le_max (le_refl _) (Nat.add_le_add_right (UInt64.le_iff_toNat_le.mp forward) _)

theorem Promised.congr {host host' : Host N G R} (promised : Promised ops world host) (same : SameTimer False host host') :
    Promised ops world host' := by
  intro up node kind deadline wanted
  rw [same.timer.resolve_right And.left]
  exact promised (same.up ▸ up) node (same.node not_false node kind) deadline wanted

/-- More entries do no harm. -/
theorem Wakes.grow (wakes : Wakes ops busy world) (base : world'.base = world.base) (hosts : world'.hosts = world.hosts)
    (forward : world.agenda.now ≤ world'.agenda.now)
    (grown : ∀ entry ∈ world.agenda.entries, entry ∈ world'.agenda.entries) : Wakes ops busy world' := by
  refine ⟨fun id host due found timer => ?_, fun id host found => ?_, fun id host found idle => ?_⟩
  all_goals rw [hosts] at found
  · obtain ⟨entry, member, event, at_⟩ := wakes.queued id host due found timer
    exact ⟨entry, grown entry member, event, at_⟩
  · exact wakes.down id host found
  · exact (wakes.promised id host found idle).later base forward

theorem exists_of_sameTimers {hosts hosts' : List (Host N G R)} (same : SameTimers touched hosts hosts')
    {host' : Host N G R} (found : hosts'[id]? = some host') :
    ∃ host, hosts[id]? = some host ∧ SameTimer (touched = some id) host host' := by
  have within : id < hosts.length := same.1 ▸ (List.getElem?_eq_some_iff.mp found).1
  exact ⟨hosts[id], List.getElem?_eq_getElem within, same.2 id _ _ (List.getElem?_eq_getElem within) found⟩

theorem Change.wakes (change : Change least touched world world') (wakes : Wakes ops busy world)
    (mine : ∀ id, touched = some id → busy = some id) : Wakes ops busy world' := by
  cases change with
  | quiet agenda horizon config hosts =>
    refine ⟨fun id host due found timer => ?_, fun id host found down => ?_, fun id host found idle => ?_⟩
    all_goals obtain ⟨before, was, same⟩ := exists_of_sameTimers hosts found
    · rw [agenda, same.generation]
      refine wakes.queued id before due was (timer ▸ (same.timer.resolve_right ?_).symm)
      rintro ⟨-, given⟩
      rw [given] at timer
      cases timer
    · have none_ := wakes.down id before was (same.up ▸ down)
      exact same.timer.elim (fun kept => kept.trans none_) And.right
    · have untouched : ¬ touched = some id := fun same => idle (mine id same)
      refine ((wakes.promised id before was idle).congr (same.mono (fun narrow => untouched narrow))).later config.base ?_
      rw [agenda]
  | pushed => exact wakes.grow rfl rfl (le_refl _) (fun _ member => Agenda.mem_push.mpr (.inr member))
  | carried => exact wakes.grow rfl rfl (le_refl _) (fun _ member => Agenda.mem_push.mpr (.inr member))

theorem Evolves.wakes (evolves : Evolves least touched world world') (wakes : Wakes ops busy world)
    (mine : ∀ id, touched = some id → busy = some id) : Wakes ops busy world' := by
  induction evolves with
  | refl => exact wakes
  | tail _ change ih => exact change.wakes ih mine

/-- A new record of one host, where the rest stays. -/
theorem Wakes.setHost {host : Host N G R} (wakes : Wakes ops (some id) world)
    (queued : ∀ due, host.nextTimer = some due →
      ∃ entry ∈ world.agenda.entries, entry.event = .timer id host.timerGeneration ∧ entry.due = due)
    (down : host.up = false → host.nextTimer = none) (promised : busy ≠ some id → Promised ops world host) :
    Wakes ops busy (world.setHost id host) := by
  have cases_ : ∀ (other : HostId) host', (world.setHost id host).hosts[other]? = some host' →
      (other = id ∧ host' = host) ∨ (other ≠ id ∧ world.hosts[other]? = some host') := by
    intro other host' found
    rw [SimWorld.setHost, List.getElem?_set] at found
    split at found
    next equal =>
      split at found
      · exact .inl ⟨equal.symm, (Option.some.inj found).symm⟩
      · cases found
    next apart => exact .inr ⟨fun same => apart same.symm, found⟩
  refine ⟨fun other host' due found timer => ?_, fun other host' found => ?_, fun other host' found idle => ?_⟩
  all_goals rcases cases_ other host' found with ⟨rfl, rfl⟩ | ⟨apart, was⟩
  · exact queued due timer
  · exact wakes.queued other host' due was timer
  · exact down
  · exact wakes.down other host' was
  · exact promised idle
  · exact wakes.promised other host' was (fun same => apart (Option.some.inj same).symm)

theorem wakeUp_le (world : SimWorld N G R) (deadline : Instant) : (world.wakeUp deadline).toNat ≤
    max (deadline - world.base) (world.agenda.now.toNat + timerMinAdvance.toNat) := by
  have early : (asNanos (deadline - world.base)).toNat ≤ deadline - world.base := by
    rw [asNanos, UInt64.toNat_ofNat']
    exact Nat.mod_le _ _
  have soon : (world.agenda.now + timerMinAdvance).toNat ≤ world.agenda.now.toNat + timerMinAdvance.toNat := by
    rw [UInt64.toNat_add]
    exact Nat.mod_le _ _
  rcases max_choice (asNanos (deadline - world.base)) (world.agenda.now + timerMinAdvance) with first | second
  · rw [wakeUp, first]
    exact early.trans (le_max_left _ _)
  · rw [wakeUp, second]
    exact soon.trans (le_max_right _ _)

theorem Armed.wakes (armed : Armed ops id world world') (wakes : Wakes ops (some id) world) : Wakes ops none world' := by
  cases armed with
  | absent none_ =>
    refine ⟨wakes.queued, wakes.down, fun other host found _ => ?_⟩
    by_cases same : other = id
    · subst same
      exact fun up node kind => absurd kind (none_ host found up node)
    · exact wakes.promised other host found (fun equal => same (Option.some.inj equal).symm)
  | @dropped host node found kind never =>
    refine wakes.setHost (fun due timer => by cases timer) (fun _ => rfl) (fun _ _ other kind' deadline wanted => ?_)
    obtain rfl := HostKind.node.inj (kind.symm.trans kind')
    rw [never] at wanted
    cases wanted
  | @kept host node deadline found up kind wanted same =>
    refine ⟨wakes.queued, wakes.down, fun other host' found' _ => ?_⟩
    by_cases equal : other = id
    · subst equal
      obtain rfl := Option.some.inj (found.symm.trans found')
      intro _ node' kind' deadline' wanted'
      obtain rfl := HostKind.node.inj (kind.symm.trans kind')
      obtain rfl := Option.some.inj (wanted.symm.trans wanted')
      exact ⟨_, same, wakeUp_le world deadline⟩
    · exact wakes.promised other host' found' (fun same => equal (Option.some.inj same).symm)
  | @made host node deadline found up kind wanted =>
    have grown : Wakes ops (some id) (world.pushEvent (world.wakeUp deadline) (.timer id (host.timerGeneration + 1))) :=
      wakes.grow rfl rfl (le_refl _) (fun _ member => Agenda.mem_push.mpr (.inr member))
    refine grown.setHost (fun due timer => ?_) (fun down => ?_) (fun _ _ node' kind' deadline' wanted' => ?_)
    · obtain rfl := Option.some.inj timer
      exact ⟨_, Agenda.mem_push.mpr (.inl rfl), rfl, rfl⟩
    · exact absurd (up.symm.trans down) (by decide)
    · obtain rfl := HostKind.node.inj (kind.symm.trans kind')
      obtain rfl := Option.some.inj (wanted.symm.trans wanted')
      exact ⟨_, rfl, wakeUp_le world deadline⟩

theorem Outcome.wakes (outcome : Outcome ops least world world') (idle : Wakes ops none world) : Wakes ops none world' := by
  cases outcome with
  | idle evolves => exact evolves.wakes idle (fun id touched => by cases touched)
  | @touched id mid evolves =>
    have busy : Wakes ops (some id) world :=
      ⟨idle.queued, idle.down, fun other host found _ => idle.promised other host found (by intro no; cases no)⟩
    exact (armed_rescheduleTimer ops id mid).wakes (evolves.wakes busy (fun other same => same))

theorem Wakes.touch (idle : Wakes ops none world) (id : HostId) : Wakes ops (some id) world :=
  ⟨idle.queued, idle.down, fun other host found _ => idle.promised other host found (by intro no; cases no)⟩

theorem Wakes.pop {target : UInt64} {entry : Agenda.Entry UInt64 EventKind} {rest : Agenda UInt64 EventKind}
    (wakes : Wakes ops busy world) (popped : world.agenda.pop target = some (entry, rest))
    (spared : ∀ (id : HostId) host due, world.hosts[id]? = some host → host.nextTimer = some due →
      entry.event ≠ .timer id host.timerGeneration) : Wakes ops busy (world.putAgenda rest) := by
  obtain ⟨tail, entries, -, made⟩ := Agenda.pop_eq_some popped
  refine ⟨fun id host due found timer => ?_, wakes.down, fun id host found idle => ?_⟩
  · obtain ⟨waiting, member, event, at_⟩ := wakes.queued id host due found timer
    rw [entries] at member
    rcases List.mem_cons.mp member with rfl | inside
    · exact absurd event (spared id host due found timer)
    · exact ⟨waiting, by rw [made]; exact inside, event, at_⟩
  · refine (wakes.promised id host found idle).later rfl ?_
    show world.agenda.now ≤ rest.now
    rw [made]
    exact le_max_right _ _

/-- A timer that is current is given up before the node is called. -/
theorem Wakes.wake {target : UInt64} {entry : Agenda.Entry UInt64 EventKind} {rest : Agenda UInt64 EventKind}
    {host : Host N G R} (wakes : Wakes ops none world) (popped : world.agenda.pop target = some (entry, rest))
    (current : entry.event = .timer id host.timerGeneration) (found : world.hosts[id]? = some host) :
    Wakes ops (some id) ((world.putAgenda rest).setHost id { host with nextTimer := none }) := by
  have given : Wakes ops (some id) (world.setHost id { host with nextTimer := none }) :=
    (wakes.touch id).setHost (fun due timer => by cases timer) (fun _ => rfl) (fun idle => absurd rfl idle)
  have popped' : (world.setHost id { host with nextTimer := none }).agenda.pop target = some (entry, rest) := popped
  refine given.pop popped' (fun other host' due found' timer same => ?_)
  obtain ⟨rfl, -⟩ := EventKind.timer.inj (current.symm.trans same)
  rw [setHost_self found] at found'
  obtain rfl := Option.some.inj found'
  cases timer

end

/-! ### Runs -/

section
variable [SimRng R] (lan : LanOps G R) {least : Nat} {world : SimWorld N G R} {id : HostId}

theorem wakes_postProcess {mid : SimWorld N G R} (wakes : Wakes ops (some id) mid)
    (roomy : Roomy least mid.agenda.now mid) : Wakes ops none (postProcess lan ops id mid) := by
  have settled : ∀ passes, Evolves least (some id) mid (settle lan ops id passes mid) :=
    fun passes => evolves_settle lan ops passes mid roomy
  exact (armed_rescheduleTimer ops id _).wakes ((settled _).wakes wakes (fun _ same => same))

theorem dispatch_timer {host : Host N G R} (found : world.hosts[id]? = some host) (up : host.up = true) :
    dispatch lan ops world (.timer id host.timerGeneration) =
      postProcess lan ops id ((world.setHost id { host with nextTimer := none }).withHost id ops.onTimer) := by
  unfold dispatch
  dsimp only
  rw [found]
  dsimp only
  rw [if_neg (by simp [up])]

theorem wakes_dispatch {target : UInt64} {entry : Agenda.Entry UInt64 EventKind} {rest : Agenda UInt64 EventKind}
    (wakes : Wakes ops none world) (popped : world.agenda.pop target = some (entry, rest))
    (roomy : Roomy least (world.putAgenda rest).agenda.now (world.putAgenda rest)) :
    Wakes ops none (dispatch lan ops (world.putAgenda rest) entry.event) := by
  have others : (∀ (id : HostId) host due, world.hosts[id]? = some host → host.nextTimer = some due →
      entry.event ≠ .timer id host.timerGeneration) →
      Wakes ops none (dispatch lan ops (world.putAgenda rest) entry.event) :=
    fun spared => (outcome_dispatch lan ops entry.event roomy).wakes (wakes.pop popped spared)
  cases event : entry.event with
  | delivery toHost src dst payload via =>
    exact event ▸ others (fun _ _ _ _ _ same => by rw [event] at same; cases same)
  | tcpDeliver host tcp => exact event ▸ others (fun _ _ _ _ _ same => by rw [event] at same; cases same)
  | timer id generation =>
    by_cases live : ∃ host, world.hosts[id]? = some host ∧ host.up = true ∧ host.timerGeneration = generation
    · obtain ⟨host, found, up, rfl⟩ := live
      have here : (world.putAgenda rest).hosts[id]? = some host := found
      rw [dispatch_timer ops lan here up]
      have called : Evolves least (some id) ((world.putAgenda rest).setHost id { host with nextTimer := none })
          (((world.putAgenda rest).setHost id { host with nextTimer := none }).withHost id ops.onTimer) := evolves_withHost
      have given : Evolves least (some id) (world.putAgenda rest)
          ((world.putAgenda rest).setHost id { host with nextTimer := none }) :=
        evolves_setHost here ⟨rfl, rfl, .inr ⟨rfl, rfl⟩, fun no => absurd rfl no⟩
      exact wakes_postProcess ops lan (called.wakes (wakes.wake popped event found) (fun _ same => same))
        ((given.trans called).roomy roomy)
    · rw [← event]
      refine others (fun other host due found timer same => live ?_)
      obtain ⟨rfl, rfl⟩ := EventKind.timer.inj (event.symm.trans same)
      refine ⟨host, found, ?_, rfl⟩
      by_contra down
      rw [wakes.down _ host found (Bool.eq_false_iff.mpr down)] at timer
      cases timer

/-- What only looks at a node leaves its deadline. -/
def Discreet : WorldInput N G R → Prop
  | .inspect _ f => ∀ node, ops.pollTimeout (f node) = ops.pollTimeout node
  | _ => True

omit [SimRng R] in
theorem wakes_join {natChain : List (NatBox R)} {v6 : Option HostV6} {gateway : Option G} {env : HostEnvState R}
    {kind : HostKind N} {owned : List IpAddr} (wakes : Wakes ops none world) :
    Wakes ops none (join ops natChain v6 gateway env kind owned world) := by
  refine (armed_rescheduleTimer ops _ _).wakes ?_
  have cases_ : ∀ (id : HostId) host,
      (world.hosts ++ [(⟨true, natChain, v6, gateway, env, kind, 0, none, 0, 0⟩ : Host N G R)])[id]? = some host →
        world.hosts[id]? = some host ∨ id = world.hosts.length ∧ host.nextTimer = none ∧ host.up = true := by
    intro id host found
    rcases Nat.lt_or_ge id world.hosts.length with old | new
    · rw [List.getElem?_append_left old] at found
      exact .inl found
    · rw [List.getElem?_append_right new, List.getElem?_singleton] at found
      split at found
      next first =>
        obtain rfl := Option.some.inj found
        exact .inr ⟨Nat.le_antisymm (Nat.le_of_sub_eq_zero first) new, rfl, rfl⟩
      · cases found
  refine ⟨fun id host due found timer => ?_, fun id host found down => ?_, fun id host found idle => ?_⟩
  all_goals rcases cases_ id host found with old | ⟨same, none_, up⟩
  · exact wakes.queued id host due old timer
  · rw [none_] at timer
    cases timer
  · exact wakes.down id host old down
  · exact none_
  · exact (wakes.promised id host old (by intro no; cases no)).later rfl (le_refl _)
  · exact absurd (congrArg some same.symm) idle

theorem wakes_step {input : WorldInput N G R} {taken : List (Agenda.Entry UInt64 EventKind)}
    (orderly : Orderly world taken) (wakes : Wakes ops none world) (fits : Fits world input)
    (discreet : Discreet ops input) : Wakes ops none (step lan ops world input).1 := by
  have quiet : ∀ {touched : SimWorld N G R}, touched.base = world.base → touched.hosts = world.hosts →
      touched.agenda = world.agenda → Wakes ops none touched := fun base hosts agenda =>
    wakes.grow base hosts (by rw [agenda]) (fun _ member => by rw [agenda]; exact member)
  cases input with
  | tick target =>
    obtain ⟨forward, roomy⟩ := fits
    cases popped : world.agenda.pop target with
    | none =>
      rw [step_tick_none lan ops popped]
      exact wakes.grow rfl rfl forward (fun _ member => member)
    | some next =>
      obtain ⟨entry, rest⟩ := next
      rw [step_tick_some lan ops popped]
      exact wakes_dispatch ops lan wakes popped (outcome_tick lan ops orderly.kept popped roomy).1
  | join natChain v6 gateway env kind owned => exact wakes_join ops wakes
  | setDefaultLink params => exact quiet rfl rfl rfl
  | setLink link params => exact quiet rfl rfl rfl
  | setHostUp id up =>
    rw [step, setHostUp]
    split
    · exact wakes
    next host found =>
      split
      · exact wakes
      · split
        next rising =>
          refine (armed_rescheduleTimer ops id _).wakes ?_
          have down : host.up = false := by
            cases held : host.up with
            | false => rfl
            | true => rename_i apart; exact absurd (held.trans rising.symm) apart
          have set_ : Wakes ops (some id) (world.setHost id { host with up := true }) := by
            refine (wakes.touch id).setHost (fun due timer => ?_) (fun no => by cases no) (fun idle => absurd rfl idle)
            rw [wakes.down id host found down] at timer
            cases timer
          exact set_.grow rfl rfl (le_refl _) (fun _ member => member)
        · have set_ : Wakes ops none (world.setHost id
              { host with up := false, nextTimer := none, timerGeneration := host.timerGeneration + 1 }) :=
            (wakes.touch id).setHost (fun due timer => by cases timer) (fun _ => rfl) (fun _ up => by cases up)
          exact set_.grow rfl rfl (le_refl _) (fun _ member => member)
  | restart id fresh =>
    rw [step, restart]
    split
    · exact wakes
    next host found =>
      split
      · exact wakes
      · refine (armed_rescheduleTimer ops id _).wakes ?_
        exact (wakes.touch id).setHost (fun due timer => wakes.queued id host due found timer) (fun no => by cases no)
          (fun idle => absurd rfl idle)
  | call id f => exact (outcome_postProcess lan ops evolves_withHost fits).wakes wakes
  | inspect id f =>
    rw [step, withHost]
    split
    · exact wakes
    next host found =>
      split
      · exact wakes
      next node kind =>
        refine (wakes.touch id).setHost (fun due timer => wakes.queued id host due found timer)
          (wakes.down id host found) (fun _ up node' kind' deadline wanted => ?_)
        obtain rfl := HostKind.node.inj kind'
        exact wakes.promised id host found (by intro no; cases no) up node kind deadline (discreet node ▸ wanted)
  | probeBind id port =>
    unfold step
    dsimp only
    split
    · exact wakes
    next host found =>
      have bound : Evolves 0 none world (world.setHost id { host with env := (host.env.bind (some port) .v4).1 }) :=
        evolves_setHost found ⟨rfl, rfl, .inl rfl, fun _ _ kind => kind⟩
      exact bound.wakes wakes (fun _ no => by cases no)
  | probeSend id socket dest payload =>
    unfold step
    dsimp only
    split
    · exact wakes
    next source _ =>
      have sent : Evolves 0 none world (route lan id world (source, dest, payload)) := evolves_route lan fits
      exact sent.wakes wakes (fun _ no => by cases no)

omit [SimRng R] in
theorem wakes_new (base : Instant) (rng : R) : Wakes ops none (new base rng : SimWorld N G R) := by
  refine ⟨fun id host due found => ?_, fun id host found => ?_, fun id host found => ?_⟩
  all_goals cases found

/-- In every run, a host that is up and whose node has a deadline has a timer on the agenda that will be honoured: it
carries the current number of the host and is due by the deadline, or the least advance of a timer from now. -/
theorem woken_in_time {base : Instant} {rng : R} {inputs : List (WorldInput N G R)}
    (fits : Meets (step lan ops) (fun world input => Fits world input ∧ Discreet ops input) (new base rng) inputs) :
    let world := (run (step lan ops) (new base rng : SimWorld N G R) inputs).1
    ∀ (id : HostId) host node deadline, world.hosts[id]? = some host → host.up = true → host.kind = .node node →
      ops.pollTimeout node = some deadline → ∃ entry ∈ world.agenda.entries,
        entry.event = .timer id host.timerGeneration ∧ world.agenda.now ≤ entry.due ∧
          entry.due.toNat ≤ max (deadline - world.base) (world.agenda.now.toNat + timerMinAdvance.toNat) := by
  have held := run_history (P := fun _ world taken => Orderly world taken ∧ Wakes ops none world)
    ⟨orderly_new base rng, wakes_new ops base rng⟩
    (fun _ _ _ _ both fits => ⟨orderly_step lan ops both.1 fits.1, wakes_step ops lan both.1 both.2 fits.1 fits.2⟩)
    inputs fits
  intro world id host node deadline found up kind wanted
  obtain ⟨due, timer, within⟩ := held.2.promised id host found (by intro no; cases no) up node kind deadline wanted
  obtain ⟨entry, member, event, rfl⟩ := held.2.queued id host due found timer
  exact ⟨entry, member, event, held.1.kept.ahead entry member, within⟩

theorem woken_in_time_pair : ∃ entry ∈ pairWorld.agenda.entries, entry.event = .timer 0 1 ∧ entry.due.toNat ≤ 1000000 := by
  have fits : Meets (step Gateway.lan pinger) (fun world input => Fits world input ∧ Discreet pinger input) (new 0 ()) pair :=
    (meets_and _).mpr ⟨pair_fits, trivial, trivial, trivial⟩
  obtain ⟨entry, member, event, -, within⟩ := woken_in_time pinger Gateway.lan fits 0 _ _ _ rfl rfl rfl rfl
  exact ⟨entry, member, event, within⟩

end

end SimWorld

end Lightbringer.Overlay.Sim
