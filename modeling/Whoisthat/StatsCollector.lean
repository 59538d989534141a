import Mathlib.Algebra.BigOperators.Group.List.Basic
import Mathlib.Algebra.Group.Int.Defs
import Mathlib.Algebra.Group.Prod
import Mathlib.Tactic.Abel
import Mathlib.Data.List.Chain
import Mathlib.Data.List.Infix

/-!
# Collector of traffic statistics

Once a second the collector reads the byte counters of the core and of the TUN
device and sends the differences to the values it read before. It forgets
nothing and keeps the values only: not whether the device was ever read, nor
whether a difference was taken by the channel. What it sends is compared with
what the counters themselves say has passed.
-/

set_option autoImplicit false

namespace Whoisthat.StatsCollector

section Source

/-- Two counters as read at one time, and the life of whoever counts. -/
structure Reading where
  life : ℕ
  up : ℕ
  down : ℕ
deriving DecidableEq, Repr

/-- What one tick finds: the answer of the core, the two files of the device
and whether the channel takes a value. -/
structure Tick where
  proxy : Option Reading
  deviceLife : ℕ
  rxBytes : Option ℕ
  txBytes : Option ℕ
  room : Bool
deriving DecidableEq, Repr

structure TrafficStats where
  proxyUp : ℤ
  proxyDown : ℤ
  directUp : ℤ
  directDown : ℤ
deriving DecidableEq, Repr

structure Collector where
  firstRun : Bool
  prevProxyUp : ℤ
  prevProxyDown : ℤ
  prevDirectTx : ℤ
  prevDirectRx : ℤ
deriving DecidableEq, Repr

def start : Collector := ⟨true,0,0,0,0⟩

def readIfaceBytes (t : Tick) : Option (ℕ × ℕ) :=
  t.rxBytes.bind fun rx => t.txBytes.map fun tx => (rx,tx)

/-- The counters of the device as rx and tx; zero without a TUN, those of
before when they cannot be read. -/
def directBytes (tunName : String) (c : Collector) (t : Tick) : ℤ × ℤ :=
  if tunName ≠ "" then
    match readIfaceBytes t with
    | some (rx,tx) => (rx,tx)
    | none => (c.prevDirectRx,c.prevDirectTx)
  else (0,0)

def collectTick (tunName : String) (c : Collector) (t : Tick) : Collector × List TrafficStats :=
  match t.proxy with
  | none => (c,[])
  | some proxy =>
    let (directRx,directTx) := directBytes tunName c t
    let next : Collector := ⟨false,proxy.up,proxy.down,directTx,directRx⟩
    if c.firstRun then (next,[])
    else
      let delta : TrafficStats := ⟨proxy.up - c.prevProxyUp,proxy.down - c.prevProxyDown,
        directTx - c.prevDirectTx,directRx - c.prevDirectRx⟩
      (next,if t.room then [delta] else [])

def collectStats (tunName : String) : List Tick → Collector → Collector × List TrafficStats
  | [],c => (c,[])
  | t::ticks,c =>
    let (next,sent) := collectTick tunName c t
    let (last,rest) := collectStats tunName ticks next
    (last,sent ++ rest)

end Source

section Specification

def Reading.counts (r : Reading) : ℤ × ℤ := (r.up,r.down)

/-- What a counter says has passed between two readings: a device that came
anew has counted from zero. -/
def since (a b : Reading) : ℤ × ℤ := if b.life = a.life then b.counts - a.counts else b.counts

/-- What the readings say has passed from the first to the last. -/
def traffic : List Reading → ℤ × ℤ
  | a::b::rest => since a b + traffic (b::rest)
  | _ => 0

def proxySamples (ticks : List Tick) : List Reading := ticks.filterMap Tick.proxy

/-- The reading of the device in a tick: none without an answer of the core. -/
def deviceSample (tunName : String) (t : Tick) : Option Reading :=
  if tunName ≠ "" then
    t.proxy.bind fun _ => (readIfaceBytes t).map fun bytes => ⟨t.deviceLife,bytes.2,bytes.1⟩
  else none

def deviceSamples (tunName : String) (ticks : List Tick) : List Reading :=
  ticks.filterMap (deviceSample tunName)

def TrafficStats.proxy (s : TrafficStats) : ℤ × ℤ := (s.proxyUp,s.proxyDown)

def TrafficStats.direct (s : TrafficStats) : ℤ × ℤ := (s.directUp,s.directDown)

def sent (tunName : String) (ticks : List Tick) : List TrafficStats :=
  (collectStats tunName ticks start).2

def NonNegative (s : TrafficStats) : Prop :=
  0 ≤ s.proxyUp ∧ 0 ≤ s.proxyDown ∧ 0 ≤ s.directUp ∧ 0 ≤ s.directDown

/-- What is sent is what has passed, and never negative. -/
structure Conserves (tunName : String) (ticks : List Tick) : Prop where
  nonneg : ∀ s ∈ sent tunName ticks, NonNegative s
  proxy : ((sent tunName ticks).map TrafficStats.proxy).sum = traffic (proxySamples ticks)
  direct : ((sent tunName ticks).map TrafficStats.direct).sum =
    traffic (deviceSamples tunName ticks)

/-- In one life a counter only grows. -/
def Grows (a b : Reading) : Prop := b.life = a.life → a.up ≤ b.up ∧ a.down ≤ b.down

/-- The readings of one core, and of a device that may come anew. -/
structure Counting (tunName : String) (ticks : List Tick) : Prop where
  core : (proxySamples ticks).IsChain fun a b => b.life = a.life ∧ Grows a b
  device : (deviceSamples tunName ticks).IsChain Grows

/-- A tick that sends: the device was read before and is still the one it was,
or nothing that it has counted is left out or counted again. -/
def Continues (last : Option Reading) (d : Reading) : Prop :=
  match last with
  | none => d.counts = 0
  | some a => d.life = a.life ∨ a.counts = 0

/-- Nothing has passed since the last reading. -/
def Idle (last : Option Reading) (d : Reading) : Prop :=
  match last with
  | none => True
  | some a => since a d = 0

/-- The first answer of the core asks for nothing. Later ones either find room
and a device that continues, or have nothing to send. -/
def Careful (tunName : String) (before : List Tick) (t : Tick) : Prop :=
  ∀ p, t.proxy = some p → proxySamples before ≠ [] →
    if t.room then
      ∀ d, deviceSample tunName t = some d → Continues (deviceSamples tunName before).getLast? d
    else
      Idle (proxySamples before).getLast? p ∧
        ∀ d, deviceSample tunName t = some d → Idle (deviceSamples tunName before).getLast? d

end Specification

section Counters

theorem traffic_concat (l : List Reading) (b : Reading) :
    traffic (l ++ [b]) = traffic l + (l.getLast?.elim 0 fun a => since a b) := by
  induction l with
  | nil => rfl
  | cons a l ih =>
    cases l with
    | nil => simp [traffic]
    | cons c l =>
      have hlast : (a::c::l).getLast? = (c::l).getLast? := List.getLast?_cons_cons
      rw [List.cons_append,List.cons_append,traffic,← List.cons_append,ih,hlast,traffic,add_assoc]

/-- Of a counter of one life the traffic is the last reading less the first. -/
theorem traffic_life (a : Reading) (l : List Reading)
    (h : (a::l).IsChain fun a b => b.life = a.life ∧ Grows a b) :
    traffic (a::l) = ((a::l).getLast (by simp)).counts - a.counts := by
  induction l generalizing a with
  | nil => simp [traffic]
  | cons b l ih =>
    obtain ⟨⟨hlife,-⟩,hrest⟩ := List.isChain_cons_cons.mp h
    rw [traffic,ih b hrest,since,if_pos hlife,List.getLast_cons (List.cons_ne_nil b l)]
    abel

theorem since_nonneg {a b : Reading} (h : Grows a b) : 0 ≤ (since a b).1 ∧ 0 ≤ (since a b).2 := by
  unfold since
  split
  · rename_i hlife
    have hgrows := h hlife
    simp only [Reading.counts,Prod.fst_sub,Prod.snd_sub]
    omega
  · simp [Reading.counts]

end Counters

section Ticks

variable {tunName : String} {before : List Tick} {t : Tick}

/-- The collector holds the last readings, and zero for a device never read. -/
structure Holds (tunName : String) (before : List Tick) (c : Collector) : Prop where
  first : c.firstRun = true ↔ proxySamples before = []
  proxy : (c.prevProxyUp,c.prevProxyDown) = (proxySamples before).getLast?.elim 0 Reading.counts
  direct : (c.prevDirectTx,c.prevDirectRx) =
    (deviceSamples tunName before).getLast?.elim 0 Reading.counts

theorem proxySamples_concat (before : List Tick) (t : Tick) :
    proxySamples (before ++ [t]) = proxySamples before ++ t.proxy.toList := by
  rw [proxySamples,List.filterMap_append]
  cases h : t.proxy <;> simp [h,proxySamples]

theorem deviceSamples_concat (tunName : String) (before : List Tick) (t : Tick) :
    deviceSamples tunName (before ++ [t]) =
      deviceSamples tunName before ++ (deviceSample tunName t).toList := by
  rw [deviceSamples,List.filterMap_append]
  cases h : deviceSample tunName t <;> simp [h,deviceSamples]

theorem deviceSample_unanswered (h : t.proxy = none) : deviceSample tunName t = none := by
  unfold deviceSample
  split
  · rw [h]
    rfl
  · rfl

/-- Before the first answer of the core the device is not read either. -/
theorem device_unread (h : proxySamples before = []) : deviceSamples tunName before = [] := by
  refine List.filterMap_eq_nil_iff.mpr fun t ht => deviceSample_unanswered ?_
  exact List.filterMap_eq_nil_iff.mp h t ht

theorem collectStats_concat (before : List Tick) (t : Tick) (c : Collector) :
    collectStats tunName (before ++ [t]) c =
      ((collectTick tunName (collectStats tunName before c).1 t).1,
        (collectStats tunName before c).2 ++
          (collectTick tunName (collectStats tunName before c).1 t).2) := by
  induction before generalizing c with
  | nil => simp [collectStats]
  | cons a before ih => simp [collectStats,ih]

/-- The values of the device a tick ends with, as tx and rx. -/
theorem directBytes_eq {c : Collector} (hc : Holds tunName before c) {p : Reading}
    (hp : t.proxy = some p) :
    (directBytes tunName c t).swap =
      ((deviceSample tunName t).or (deviceSamples tunName before).getLast?).elim 0
        Reading.counts := by
  unfold directBytes deviceSample
  split
  · rw [hp,Option.bind_some]
    cases hread : readIfaceBytes t with
    | none => exact hc.direct
    | some bytes => rfl
  · rename_i htun
    have hnone : deviceSamples tunName before = [] :=
      List.filterMap_eq_nil_iff.mpr fun t _ => if_neg htun
    rw [hnone]
    rfl

/-- A tick the core answers, spelled out. -/
theorem collectTick_answered {c : Collector} {p : Reading} (hp : t.proxy = some p) :
    collectTick tunName c t =
      (⟨false,p.up,p.down,(directBytes tunName c t).2,(directBytes tunName c t).1⟩,
        if c.firstRun = false ∧ t.room = true then
          [⟨p.up - c.prevProxyUp,p.down - c.prevProxyDown,
            (directBytes tunName c t).2 - c.prevDirectTx,
            (directBytes tunName c t).1 - c.prevDirectRx⟩]
        else []) := by
  rw [collectTick,hp]
  cases hfirst : c.firstRun <;> cases hroom : t.room <;> simp

theorem holds_start (tunName : String) : Holds tunName [] start := ⟨by decide,rfl,rfl⟩

theorem holds_tick {c : Collector} (hc : Holds tunName before c) (t : Tick) :
    Holds tunName (before ++ [t]) (collectTick tunName c t).1 := by
  cases hp : t.proxy with
  | none =>
    have hproxy : proxySamples (before ++ [t]) = proxySamples before := by
      rw [proxySamples_concat,hp,Option.toList_none,List.append_nil]
    have hdevice : deviceSamples tunName (before ++ [t]) = deviceSamples tunName before := by
      rw [deviceSamples_concat,deviceSample_unanswered hp,Option.toList_none,List.append_nil]
    have hkept : (collectTick tunName c t).1 = c := by rw [collectTick,hp]
    exact ⟨by rw [hkept,hproxy,hc.first],by rw [hkept,hproxy,hc.proxy],
      by rw [hkept,hdevice,hc.direct]⟩
  | some p =>
    have hdirect := directBytes_eq hc hp
    rw [collectTick_answered hp]
    refine ⟨?_,?_,?_⟩
    · simp [proxySamples_concat,hp]
    · simp [proxySamples_concat,hp,Reading.counts]
    · rw [deviceSamples_concat,List.getLast?_append]
      cases hd : deviceSample tunName t with
      | none => rwa [hd] at hdirect
      | some d => rwa [hd] at hdirect

theorem holds_run (tunName : String) (ticks : List Tick) :
    Holds tunName ticks (collectStats tunName ticks start).1 := by
  induction ticks using List.reverseRecOn with
  | nil => exact holds_start tunName
  | append_singleton before t ih =>
    rw [collectStats_concat]
    exact holds_tick ih t

end Ticks

section Conservation

variable {tunName : String} {before : List Tick} {t : Tick}

/-- What passes with one more reading. -/
def gain (l : List Reading) (o : Option Reading) : ℤ × ℤ :=
  o.elim 0 fun b => l.getLast?.elim 0 fun a => since a b

theorem traffic_toList (l : List Reading) (o : Option Reading) :
    traffic (l ++ o.toList) = traffic l + gain l o := by
  cases o with
  | none => simp [gain]
  | some b => exact traffic_concat l b

/-- What a tick sends after the ticks before it. -/
def sentBy (tunName : String) (before : List Tick) (t : Tick) : List TrafficStats :=
  (collectTick tunName (collectStats tunName before start).1 t).2

theorem sent_concat (tunName : String) (before : List Tick) (t : Tick) :
    sent tunName (before ++ [t]) = sent tunName before ++ sentBy tunName before t := by
  rw [sent,collectStats_concat]
  rfl

theorem conserves_concat (h : Conserves tunName before) (t : Tick) :
    Conserves tunName (before ++ [t]) ↔
      (∀ s ∈ sentBy tunName before t, NonNegative s) ∧
      ((sentBy tunName before t).map TrafficStats.proxy).sum =
        gain (proxySamples before) t.proxy ∧
      ((sentBy tunName before t).map TrafficStats.direct).sum =
        gain (deviceSamples tunName before) (deviceSample tunName t) := by
  have hproxy := traffic_toList (proxySamples before) t.proxy
  have hdevice := traffic_toList (deviceSamples tunName before) (deviceSample tunName t)
  rw [← proxySamples_concat] at hproxy
  rw [← deviceSamples_concat] at hdevice
  constructor
  · rintro ⟨hn,hp,hd⟩
    rw [sent_concat,List.map_append,List.sum_append,h.proxy,hproxy] at hp
    rw [sent_concat,List.map_append,List.sum_append,h.direct,hdevice] at hd
    refine ⟨fun s hs => hn s ?_,add_left_cancel hp,add_left_cancel hd⟩
    rw [sent_concat]
    exact List.mem_append_right _ hs
  · rintro ⟨hn,hp,hd⟩
    refine ⟨fun s hs => ?_,?_,?_⟩
    · rw [sent_concat] at hs
      exact (List.mem_append.mp hs).elim (h.nonneg s) (hn s)
    · rw [sent_concat,List.map_append,List.sum_append,h.proxy,hproxy,hp]
    · rw [sent_concat,List.map_append,List.sum_append,h.direct,hdevice,hd]

/-- The one value of a later tick that finds room. -/
def deltaOf (tunName : String) (before : List Tick) (t : Tick) (a p : Reading) : TrafficStats :=
  let direct := (directBytes tunName (collectStats tunName before start).1 t).swap -
    (deviceSamples tunName before).getLast?.elim 0 Reading.counts
  ⟨p.up - a.up,p.down - a.down,direct.1,direct.2⟩

theorem sentBy_unanswered (h : t.proxy = none) : sentBy tunName before t = [] := by
  rw [sentBy,collectTick,h]

theorem sentBy_first (h : proxySamples before = []) : sentBy tunName before t = [] := by
  cases hp : t.proxy with
  | none => exact sentBy_unanswered hp
  | some p =>
    have hfirst := (holds_run tunName before).first.mpr h
    rw [sentBy,collectTick_answered hp,hfirst]
    rfl

theorem sentBy_later {a p : Reading} (ha : (proxySamples before).getLast? = some a)
    (hp : t.proxy = some p) :
    sentBy tunName before t = if t.room then [deltaOf tunName before t a p] else [] := by
  have hc := holds_run tunName before
  have hne : proxySamples before ≠ [] := fun hnil => by rw [hnil] at ha; cases ha
  have hfirst : (collectStats tunName before start).1.firstRun = false :=
    Bool.eq_false_iff.mpr fun h => hne (hc.first.mp h)
  have hproxy := hc.proxy
  have hdirect := hc.direct
  rw [ha,Option.elim_some,Reading.counts,Prod.mk.injEq] at hproxy
  rw [sentBy,collectTick_answered hp,hfirst,deltaOf,← hdirect,hproxy.1,hproxy.2]
  simp

theorem since_eq_sub {a b : Reading} :
    b.counts - a.counts = since a b ↔ b.life = a.life ∨ a.counts = 0 := by
  unfold since
  split
  · rename_i h
    exact iff_of_true rfl (.inl h)
  · rename_i h
    rw [sub_eq_self,or_iff_right h]

theorem direct_delta {a p : Reading} (hp : t.proxy = some p) :
    (deltaOf tunName before t a p).direct =
        gain (deviceSamples tunName before) (deviceSample tunName t) ↔
      ∀ d, deviceSample tunName t = some d →
        Continues (deviceSamples tunName before).getLast? d := by
  have hbytes := directBytes_eq (holds_run tunName before) hp
  have hdelta : (deltaOf tunName before t a p).direct =
      ((deviceSample tunName t).or (deviceSamples tunName before).getLast?).elim 0 Reading.counts -
        (deviceSamples tunName before).getLast?.elim 0 Reading.counts := by
    rw [← hbytes]
    rfl
  rw [hdelta]
  cases hd : deviceSample tunName t with
  | none => exact iff_of_true (by simp [gain]) fun _ h => by cases h
  | some d =>
    cases hlast : (deviceSamples tunName before).getLast? with
    | none => simp [gain,hlast,Continues]
    | some b => simpa [gain,hlast,Continues] using since_eq_sub

theorem device_idle :
    0 = gain (deviceSamples tunName before) (deviceSample tunName t) ↔
      ∀ d, deviceSample tunName t = some d → Idle (deviceSamples tunName before).getLast? d := by
  cases hd : deviceSample tunName t with
  | none => exact iff_of_true rfl fun _ h => by cases h
  | some d => cases hlast : (deviceSamples tunName before).getLast? <;>
      simp [gain,hlast,Idle,eq_comm]

variable (hcount : Counting tunName (before ++ [t]))
include hcount

theorem counting_before : Counting tunName before := by
  have hcore := hcount.core
  have hdevice := hcount.device
  rw [proxySamples_concat] at hcore
  rw [deviceSamples_concat] at hdevice
  exact ⟨hcore.left_of_append,hdevice.left_of_append⟩

theorem core_grows {a p : Reading} (ha : (proxySamples before).getLast? = some a)
    (hp : t.proxy = some p) : p.life = a.life ∧ Grows a p := by
  have hcore := hcount.core
  rw [proxySamples_concat,hp] at hcore
  exact (List.isChain_append.mp hcore).2.2 a ha p rfl

theorem device_grows {b d : Reading} (hb : (deviceSamples tunName before).getLast? = some b)
    (hd : deviceSample tunName t = some d) : Grows b d := by
  have hdevice := hcount.device
  rw [deviceSamples_concat,hd] at hdevice
  exact (List.isChain_append.mp hdevice).2.2 b hb d rfl

theorem gain_nonneg : 0 ≤ (gain (deviceSamples tunName before) (deviceSample tunName t)).1 ∧
    0 ≤ (gain (deviceSamples tunName before) (deviceSample tunName t)).2 := by
  cases hd : deviceSample tunName t with
  | none => exact ⟨Int.le_refl 0,Int.le_refl 0⟩
  | some d =>
    cases hb : (deviceSamples tunName before).getLast? with
    | none => simp [gain,hb]
    | some b => simpa [gain,hb] using since_nonneg (device_grows hcount hb hd)

theorem conserves_answered (h : Conserves tunName before) {p : Reading} (hp : t.proxy = some p) :
    Conserves tunName (before ++ [t]) ↔ Careful tunName before t := by
  rw [conserves_concat h]
  cases ha : (proxySamples before).getLast? with
  | none =>
    -- The first answer: nothing is sent and nothing has passed.
    have hnil := List.getLast?_eq_none_iff.mp ha
    have hdev := @device_unread tunName _ hnil
    rw [sentBy_first hnil]
    refine iff_of_true ⟨by simp,?_,?_⟩ fun _ _ hne => absurd hnil hne
    · rw [hp,gain,Option.elim_some,ha]
      rfl
    · rw [hdev]
      cases deviceSample tunName t <;> rfl
  | some a =>
    have hne : proxySamples before ≠ [] := fun hnil => by rw [hnil] at ha; cases ha
    obtain ⟨hlife,hgrows⟩ := core_grows hcount ha hp
    have hgain : gain (proxySamples before) t.proxy = since a p := by
      rw [hp,gain,Option.elim_some,ha]
      rfl
    rw [sentBy_later ha hp,hgain]
    have hcareful : Careful tunName before t ↔
        if t.room then ∀ d, deviceSample tunName t = some d →
          Continues (deviceSamples tunName before).getLast? d
        else Idle (proxySamples before).getLast? p ∧
          ∀ d, deviceSample tunName t = some d → Idle (deviceSamples tunName before).getLast? d :=
      ⟨fun hc => hc p hp hne,fun hc q hq _ => by rwa [Option.some.inj (hq.symm.trans hp)]⟩
    rw [hcareful,ha]
    cases hroom : t.room with
    | true =>
      rw [← direct_delta (a := a) hp]
      have hproxy : (deltaOf tunName before t a p).proxy = since a p := by
        rw [since,if_pos hlife]
        rfl
      have hn := since_nonneg hgrows
      rw [← hproxy] at hn ⊢
      simp only [if_true,List.map_cons,List.map_nil,List.sum_cons,List.sum_nil,add_zero,
        true_and]
      refine ⟨And.right,fun hd => ⟨fun s hs => ?_,hd⟩⟩
      rw [List.mem_singleton.mp hs]
      have hd' := gain_nonneg hcount
      rw [← hd] at hd'
      exact ⟨hn.1,hn.2,hd'.1,hd'.2⟩
    | false =>
      simp only [Bool.false_eq_true,if_false,List.map_nil,List.sum_nil]
      rw [device_idle,Idle,eq_comm]
      simp

end Conservation

section Runs

variable {tunName : String}

theorem conserves_tick {before : List Tick} {t : Tick}
    (hcount : Counting tunName (before ++ [t])) (h : Conserves tunName before) :
    Conserves tunName (before ++ [t]) ↔ Careful tunName before t := by
  cases hp : t.proxy with
  | some p => exact conserves_answered hcount h hp
  | none =>
    refine iff_of_true ((conserves_concat h t).mpr ?_) fun q hq => by rw [hp] at hq; cases hq
    rw [sentBy_unanswered hp,hp,deviceSample_unanswered hp]
    exact ⟨by simp,rfl,rfl⟩

theorem conserves_start : Conserves tunName [] := ⟨by simp [sent,collectStats],rfl,rfl⟩

theorem counting_earlier {before ticks : List Tick} (hpre : before <+: ticks)
    (h : Counting tunName ticks) : Counting tunName before := by
  obtain ⟨after,rfl⟩ := hpre
  have hcore := h.core
  have hdevice := h.device
  rw [proxySamples,List.filterMap_append] at hcore
  rw [deviceSamples,List.filterMap_append] at hdevice
  exact ⟨hcore.left_of_append,hdevice.left_of_append⟩

/-- What has been sent is at all times what the counters say has passed, just
when every tick is careful. -/
theorem conserves_iff (tunName : String) (ticks : List Tick) (hcount : Counting tunName ticks) :
    (∀ before, before <+: ticks → Conserves tunName before) ↔
      ∀ before t, before ++ [t] <+: ticks → Careful tunName before t := by
  constructor
  · intro h before t hpre
    have hbefore := h before ((List.prefix_append before [t]).trans hpre)
    exact (conserves_tick (counting_earlier hpre hcount) hbefore).mp (h _ hpre)
  · intro h before
    induction before using List.reverseRecOn with
    | nil => exact fun _ => conserves_start
    | append_singleton before t ih =>
      intro hpre
      have hbefore := ih ((List.prefix_append before [t]).trans hpre)
      exact (conserves_tick (counting_earlier hpre hcount) hbefore).mpr (h before t hpre)

instance (s : TrafficStats) : Decidable (NonNegative s) :=
  inferInstanceAs (Decidable (_ ∧ _))

instance (tunName : String) (ticks : List Tick) : Decidable (Conserves tunName ticks) :=
  decidable_of_iff ((∀ s ∈ sent tunName ticks,NonNegative s) ∧
    ((sent tunName ticks).map TrafficStats.proxy).sum = traffic (proxySamples ticks) ∧
    ((sent tunName ticks).map TrafficStats.direct).sum = traffic (deviceSamples tunName ticks))
    ⟨fun h => ⟨h.1,h.2.1,h.2.2⟩,fun h => ⟨h.nonneg,h.proxy,h.direct⟩⟩

/-- The channel is full only when nothing has passed. -/
def calm : List Tick :=
  [⟨some ⟨0,10,20⟩,0,some 900,some 700,true⟩,⟨some ⟨0,30,50⟩,0,some 950,some 700,true⟩,
    ⟨some ⟨0,30,50⟩,0,none,none,false⟩,⟨none,0,none,none,true⟩]

/-- A difference that cannot be delivered is lost: the next one starts after it. -/
def crowded : List Tick :=
  [⟨some ⟨0,10,20⟩,0,none,none,true⟩,⟨some ⟨0,30,50⟩,0,none,none,false⟩,
    ⟨some ⟨0,31,50⟩,0,none,none,true⟩]

/-- The device is not read at first; then it is, and then it comes anew. -/
def late : List Tick :=
  [⟨some ⟨0,0,0⟩,0,none,none,true⟩,⟨some ⟨0,0,0⟩,0,some 900,some 700,true⟩,
    ⟨some ⟨0,0,0⟩,1,some 5,some 4,true⟩]

theorem conserves_iff_calm : Counting "tun0" calm ∧
    ∀ before t, before ++ [t] <+: calm → Careful "tun0" before t := by
  have hcount : Counting "tun0" calm := ⟨by simp [calm,proxySamples,Grows],
    by simp [calm,deviceSamples,deviceSample,readIfaceBytes,Grows]⟩
  refine ⟨hcount,(conserves_iff "tun0" calm hcount).mp fun before hpre => ?_⟩
  have hall : ∀ l ∈ calm.inits, Conserves "tun0" l := by decide
  exact hall before ((List.mem_inits before calm).mpr hpre)

theorem conserves_fails : (Counting "" crowded ∧ ¬Conserves "" crowded) ∧
    Counting "tun0" late ∧ ¬Conserves "tun0" late := by
  refine ⟨⟨⟨?_,?_⟩,by decide⟩,⟨?_,?_⟩,by decide⟩
  · simp [crowded,proxySamples,Grows]
  · simp [crowded,deviceSamples,deviceSample]
  · simp [late,proxySamples,Grows]
  · simp [late,deviceSamples,deviceSample,readIfaceBytes,Grows]

end Runs

end Whoisthat.StatsCollector
