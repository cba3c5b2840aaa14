import ShardLoad.Proofs.Metrics.Bookkeeping
import ShardLoad.Proofs.Run.Moves
import ShardLoad.Proofs.Shard.Labels

/-!
# Nothing is lost between a call and its booking

A call is counted by the service when it is made.  From then on it is in the hands
of its user, as a call and later as a sample, then in the queue, and at last in the
recorder.  A gauge reads the same quantity off both ends: off the counts of the
service and off the recorder.  Whatever happens, the two readings differ by what is
in between.

The quantities are the calls of one operation and the calls of one port; they differ
only in what a call weighs, so the law is proved once for all gauges.

* `Gauge`, with `Gauge.operation`, `Gauge.port`.
* `System.Tidy`: what keeps the readings meaningful, with `tidy_of_mayReach`.
* `System.Reads`, `reads_of_mayReach`: the law.
-/

namespace ShardLoad

/-! ## Gauges -/

/-- A quantity that is counted by the service and by the recorder.  The labels are those
of the endpoints of one host. -/
structure Gauge (host : String) where
  /-- What one call counts, by its operation and the label it is booked under. -/
  weight : Operation → Option String → Nat
  /-- The reading at the service. -/
  sent : Ledger → Nat
  /-- The reading at the recorder. -/
  booked : Recorder → Nat
  sent_new : ∀ n, sent (.new n) = 0
  sent_count : ∀ l operation port, Keyed.Ordered l.ports → sent (l.count operation port) =
    sent l + weight operation (some (Endpoint.mk host port).label)
  sent_spend : ∀ l n, sent { l with failuresLeft := n } = sent l
  booked_new : ∀ interval, booked (.new interval) = 0
  booked_record : ∀ r x, r.Ordered →
    booked (r.record x) = booked r + weight x.operation x.shard

namespace Gauge

variable {host : String}

/-- The calls of an operation. -/
def operation (host : String) (o : Operation) : Gauge host where
  weight p _ := if p = o then 1 else 0
  sent l := match o with
    | .transaction => l.transactions
    | .rootRead => l.rootReads
  booked r := r.operations.count o.name
  sent_new _ := by cases o <;> rfl
  sent_count l p port _ := by cases o <;> cases p <;> rfl
  sent_spend _ _ := by cases o <;> rfl
  booked_new _ := rfl
  booked_record r x h := by
    rw [Recorder.operations_record]
    by_cases hx : x.operation = o
    · rw [if_pos hx, hx, Counts.count_bump_self _ h.operations]
    · rw [if_neg hx, Counts.count_bump_of_ne fun he => hx (Operation.name_injective he).symm]
      rfl

/-- The calls of a port. -/
def port (host : String) (p : UInt16) : Gauge host where
  weight _ label := if label = some (Endpoint.mk host p).label then 1 else 0
  sent l := l.ports.count (portKey p)
  booked := Recorder.shardTotal (Endpoint.mk host p).label
  sent_new _ := rfl
  sent_count l operation q h := by
    have hports : (l.count operation q).ports = l.ports.bump (portKey q) := by
      cases operation <;> rfl
    rw [hports]
    by_cases hq : q = p
    · rw [if_pos (by rw [hq]), hq, Counts.count_bump_self _ h]
    · have hlabel : ¬(some (Endpoint.mk host q).label = some (Endpoint.mk host p).label) :=
        fun he => hq (Endpoint.label_inj.mp (Option.some.inj he))
      rw [if_neg hlabel, Counts.count_bump_of_ne fun he => hq (portKey_inj.mp he).symm]
      rfl
  sent_spend _ _ := rfl
  booked_new _ := rfl
  booked_record r x h := Recorder.shardTotal_record h _ x

/-- What a user has in hand: the call that it waits for or the sample that it hands over. -/
def inHand (g : Gauge host) (u : User) : Nat :=
  match u.phase with
  | .calling _ _ a => g.weight a.call.operation (some a.endpoint.label)
  | .delivering x => g.weight x.operation x.shard
  | _ => 0

/-- What waits in the queue. -/
def inQueue (g : Gauge host) (queue : List Sample) : Nat :=
  (queue.map fun x => g.weight x.operation x.shard).sum

/-- Booking samples in order books what they weigh. -/
theorem booked_recordAll (g : Gauge host) {r : Recorder} (h : r.Ordered) (xs : List Sample) :
    g.booked (r.recordAll xs) = g.booked r + g.inQueue xs := by
  induction xs generalizing r with
  | nil => rfl
  | cons x xs ih =>
    rw [Recorder.recordAll_cons, ih (Recorder.ordered_record h x), g.booked_record r x h]
    simp only [inQueue, List.map_cons, List.sum_cons]
    omega

end Gauge

/-! ## What keeps the readings meaningful -/

/-- A pick is on the host of the pool, and the pool stays. -/
theorem Selector.host_pick {σ : Type} [Entropy.WordSource σ] (s : Selector) (source : σ) :
    (s.pick source).1.host = s.pool.host ∧ (s.pick source).2.1.pool = s.pool := by
  have hpool := (s.pickIndex_pool source).1
  unfold pick
  rcases hp : s.pickIndex source with ⟨i, s', source'⟩
  rw [hp] at hpool
  exact ⟨rfl, hpool⟩

/-- The endpoint of the next call is on the host of the pool, and the pool stays. -/
theorem Agenda.host_next (plan : Plan) (a : Agenda) :
    (a.next plan).1.endpoint.host = a.selector.pool.host ∧
      (a.next plan).2.selector.pool = a.selector.pool := by
  unfold next
  rcases plan.weights.choose a.source with ⟨step, source⟩
  have hpick := a.selector.host_pick source
  simp only
  rcases hp : a.selector.pick source with ⟨endpoint, selector, source'⟩
  rw [hp] at hpick
  simp only
  rcases plan.builder.build (plan.operations.getD step .transaction) source' with ⟨call, source''⟩
  exact hpick

/-- A reply of a scripted service spends at most a failure. -/
theorem Script.exists_of_reply {s : Script} {timeout : Duration} {c : Outgoing}
    {l ledger : Ledger} {result : CallResult}
    (h : (Transport.scripted s).reply timeout c l = (result, ledger)) :
    ∃ n, ledger = { l with failuresLeft := n } := by
  have hledger : ledger = (s.reply timeout c.endpoint l).2 := (congrArg Prod.snd h).symm
  rw [hledger]
  unfold reply
  split
  · exact ⟨l.failuresLeft, rfl⟩
  · split
    · rename_i n _
      exact ⟨n, rfl⟩
    · exact ⟨l.failuresLeft, rfl⟩

/-- An endpoint of a host is told by its port. -/
theorem Endpoint.eq_of_host {host : String} {e : Endpoint} (h : e.host = host) :
    e = ⟨host, e.port⟩ := by
  rw [← h]

/-- Whether a label is that of an endpoint of a host. -/
def IsLabelOf (host label : String) : Prop := ∃ port, label = (Endpoint.mk host port).label

/-- Whether a sample is of a call to a host. -/
def Sample.IsOf (host : String) (x : Sample) : Prop :=
  ∀ label, x.shard = some label → IsLabelOf host label

/-- Whether a user calls a host, and has only that in hand. -/
def User.Calls (host : String) (u : User) : Prop :=
  u.agenda.selector.pool.host = host ∧
    match u.phase with
    | .calling _ _ a => a.endpoint.host = host
    | .delivering x => x.IsOf host
    | _ => True

namespace System

/-- All keyed lists are in order, all that is called is on one host, and the queue is open. -/
structure Tidy (host : String) (s : System) : Prop where
  users : ∀ u ∈ s.users, u.Calls host
  queue : ∀ x ∈ s.shared.channel.queue, x.IsOf host
  opened : s.shared.channel.closed = false
  ports : Keyed.Ordered s.shared.ledger.ports
  ordered : s.recorder.Ordered
  fed : s.recorder.Fed (IsLabelOf host)

variable {host : String} {t : Terms} {script : Script} {s s₀ s' : System}

/-- A user that goes on calls the same host. -/
theorem calls_of_move {u u' : User} {sh sh' : Shared} (hu : u.Calls host)
    (h : u.Move t sh u' sh') : u'.Calls host := by
  have hpool := hu.1
  have hhand := hu.2
  cases h with
  | send a agenda log hp hnext hlog =>
    have hhost := Agenda.host_next t.plan u.agenda
    rw [hnext] at hhost
    exact ⟨(congrArg Pool.host hhost.2).trans hpool, hhost.1.trans hpool⟩
  | receive since due a result ledger log hp hdue hr =>
    rw [hp] at hhand
    refine ⟨hpool, ?_⟩
    intro label hlabel
    refine ⟨a.endpoint.port, ?_⟩
    rw [← Endpoint.eq_of_host hhand]
    exact (Option.some.inj hlabel).symm
  | _ => exact ⟨hpool, trivial⟩

/-- A system stays tidy when a user takes a step. -/
theorem tidy_setUser {i : Nat} {u u' : User} {sh : Shared} (hs : s.Tidy host)
    (ht : t.transport = .scripted script) (hi : s.users[i]? = some u)
    (h : u.Move t s.shared u' sh) : (s.setUser i u' sh).Tidy host := by
  have hu := hs.users u (mem_of_getElem? hi)
  have husers := forall_setUser i sh hs.users (calls_of_move hu h)
  cases h with
  | send a agenda log hp hnext hlog =>
    refine ⟨husers, hs.queue, hs.opened, ?_, hs.ordered, hs.fed⟩
    rw [ht]
    show Keyed.Ordered (s.shared.ledger.count a.call.operation a.endpoint.port).ports
    unfold Ledger.count
    split <;> exact Keyed.ordered_update _ _ hs.ports
  | receive since due a result ledger log hp hdue hr =>
    refine ⟨husers, hs.queue, hs.opened, ?_, hs.ordered, hs.fed⟩
    rw [ht] at hr
    obtain ⟨n, rfl⟩ := Script.exists_of_reply hr
    exact hs.ports
  | deliver x hp hc hf =>
    refine ⟨husers, ?_, hs.opened, hs.ports, hs.ordered, hs.fed⟩
    intro y hy
    rcases List.mem_append.mp hy with hm | hm
    · exact hs.queue y hm
    · have hx := hu.2
      rw [hp] at hx
      rw [List.mem_singleton.mp hm]
      exact hx
  | _ => exact ⟨husers, hs.queue, hs.opened, hs.ports, hs.ordered, hs.fed⟩

/-- A system stays tidy when the collector publishes. -/
theorem tidy_publish (hs : s.Tidy host) : s.publish.Tidy host := by
  exact ⟨hs.users, fun x hx => absurd hx List.not_mem_nil, hs.opened, hs.ports,
    Recorder.ordered_recordAll hs.ordered _, Recorder.fed_recordAll hs.fed hs.queue⟩

/-- A system stays tidy whatever happens. -/
theorem tidy_of_move {a : Action} (hs : s.Tidy host) (ht : t.transport = .scripted script)
    (h : s.Move t a s') : s'.Tidy host := by
  cases h with
  | user i u u' sh hi hmove => exact tidy_setUser hs ht hi hmove
  | take x rest hc hq =>
    have hx : ∀ y ∈ x :: rest, y.IsOf host := hq ▸ hs.queue
    exact ⟨hs.users, fun y hy => hx y (List.mem_cons_of_mem _ hy), hs.opened, hs.ports,
      Recorder.ordered_record hs.ordered x,
      Recorder.fed_record hs.fed (hx x List.mem_cons_self)⟩
  | tick hc => exact tidy_publish hs
  | finish hc =>
    have hp := tidy_publish hs
    exact ⟨hp.users, hp.queue, hp.opened, hp.ports, hp.ordered, hp.fed⟩
  | deadline hc => exact ⟨hs.users, hs.queue, hs.opened, hs.ports, hs.ordered, hs.fed⟩
  | wait moment hi hm => exact ⟨hs.users, hs.queue, hs.opened, hs.ports, hs.ordered, hs.fed⟩

/-- A system that is tidy at the start is always tidy. -/
theorem tidy_of_mayReach (h : MayReach t s₀ s) (ht : t.transport = .scripted script)
    (h₀ : s₀.Tidy host) : s.Tidy host :=
  MayReach.invariant h h₀ (fun _ hs hm => tidy_of_move hs ht hm)
    fun _ hs => ⟨hs.users, hs.queue, hs.opened, hs.ports, hs.ordered, hs.fed⟩

/-! ## The law -/

/-- What was sent is booked, waits in the queue, or is in the hands of a user. -/
def Reads (g : Gauge host) (s : System) : Prop :=
  g.sent s.shared.ledger =
    g.booked s.recorder + g.inQueue s.shared.channel.queue + s.sum g.inHand

/-- A step of a user moves a call on, and only sending makes a new one. -/
theorem inHand_of_move (g : Gauge host) {u u' : User} {sh sh' : Shared}
    (ht : t.transport = .scripted script) (hu : u.Calls host) (hopen : sh.channel.closed = false)
    (hports : Keyed.Ordered sh.ledger.ports) (h : u.Move t sh u' sh') :
    g.sent sh'.ledger + g.inQueue sh.channel.queue + g.inHand u =
      g.sent sh.ledger + g.inQueue sh'.channel.queue + g.inHand u' := by
  cases h with
  | send a agenda log hp hnext hlog =>
    have hhost := (calls_of_move hu (.send a agenda log hp hnext hlog)).2
    have ha : a.endpoint = ⟨host, a.endpoint.port⟩ := Endpoint.eq_of_host hhost
    have hsent : g.sent (t.transport.send a.call.operation a.endpoint sh.ledger) =
        g.sent sh.ledger + g.weight a.call.operation (some a.endpoint.label) := by
      rw [ht, ha]
      exact g.sent_count sh.ledger a.call.operation a.endpoint.port hports
    simp only [Gauge.inHand, hp, hsent]
    omega
  | receive since due a result ledger log hp hdue hr =>
    rw [ht] at hr
    obtain ⟨n, rfl⟩ := Script.exists_of_reply hr
    simp only [Gauge.inHand, hp, g.sent_spend]
  | hangUp x hp hc => exact absurd (hopen.symm.trans hc) (by simp)
  | deliver x hp hc hf =>
    simp only [Gauge.inHand, hp, Gauge.inQueue, Channel.push, List.map_append, List.sum_append,
      List.map_singleton, List.sum_singleton]
    omega
  | enter hp | cancel hp | expire hp | begin hp | proceed hp | claim _ hp | overrun _ hp
    | resume _ hp | giveUp _ hp | leave _ _ hp => simp only [Gauge.inHand, hp, User.leave]

/-- Publishing books what waits in the queue. -/
theorem reads_publish (g : Gauge host) (hs : s.Tidy host) (h : Reads g s) :
    Reads g s.publish := by
  show g.sent s.shared.ledger =
    g.booked (s.recorder.recordAll s.shared.channel.queue) + g.inQueue [] + s.sum g.inHand
  rw [g.booked_recordAll hs.ordered, h]
  rfl

/-- No action changes the difference of the readings. -/
theorem reads_of_move (g : Gauge host) {a : Action} (ht : t.transport = .scripted script)
    (hs : s.Tidy host) (h : Reads g s) (hm : s.Move t a s') : Reads g s' := by
  cases hm with
  | user i u u' sh hi hmove =>
    have hhand := inHand_of_move g ht (hs.users u (mem_of_getElem? hi)) hs.opened hs.ports hmove
    have hsum := sum_setUser hi g.inHand u' sh
    have h : g.sent s.shared.ledger = g.booked s.recorder +
        g.inQueue s.shared.channel.queue + s.sum g.inHand := h
    show g.sent sh.ledger = g.booked s.recorder + g.inQueue sh.channel.queue +
      (s.setUser i u' sh).sum g.inHand
    omega
  | take x rest hc hq =>
    have hbook := g.booked_record s.recorder x hs.ordered
    have h : g.sent s.shared.ledger = g.booked s.recorder +
        g.inQueue s.shared.channel.queue + s.sum g.inHand := h
    have hqueue : g.inQueue s.shared.channel.queue =
        g.weight x.operation x.shard + g.inQueue rest := by
      rw [hq]
      simp only [Gauge.inQueue, List.map_cons, List.sum_cons]
    show g.sent s.shared.ledger = g.booked (s.recorder.record x) + g.inQueue rest + s.sum g.inHand
    omega
  | tick hc => exact reads_publish g hs h
  | finish hc => exact reads_publish g hs h
  | deadline hc => exact h
  | wait moment hi hw => exact h

/-- Whatever happens, what was sent is booked, waits in the queue, or is in the hands of
a user. -/
theorem reads_of_mayReach (g : Gauge host) (h : MayReach t s₀ s)
    (ht : t.transport = .scripted script) (h₀ : s₀.Tidy host) (hr₀ : Reads g s₀) : Reads g s :=
  MayReach.invariant h hr₀ (fun hr hs hm => reads_of_move g ht (tidy_of_mayReach hr ht h₀) hs hm)
    fun _ hs => hs

end System
end ShardLoad
