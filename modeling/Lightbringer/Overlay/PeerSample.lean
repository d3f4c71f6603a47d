import Lightbringer.Types
import Lightbringer.Lib.Best
import Lightbringer.Lib.Entries

/-!
# Scores of repair peers

`PeerSample` of `overlay/repair.rs`: what is known of the peers that repairs are asked of. `f64` is `Float`. The hash map
is a table by pubkey; the order it is iterated in is an input where it matters.
-/

namespace Lightbringer.Overlay
open Std

def maxSamplePeers : Nat := 6000
def latencyWindow : Nat := 100
def loadWindow : UInt32 := 100
def timeoutAssumedLatencyMs : Float := 300.0
def referenceLatencyMs : Float := 100.0
def maxComputedScore : Float := 92.0
def baselineScore : Float := 50.0
def hardFilterFloor : Float := 1.0
def hardFilterMinSamples : UInt32 := 10

/-- `f64::max`: a number wins over a NaN. -/
def maxFloat (a b : Float) : Float := if a.isNaN then b else if b.isNaN then a else if a < b then b else a

/-- `f64::clamp`. -/
def clampFloat (a low high : Float) : Float := if a < low then low else if high < a then high else a

/-- The last samples with their mean and sum of squared deviations. -/
structure RollingStats where
  samples : List Float
  mean : Float
  m2 : Float

namespace RollingStats

def new : RollingStats := ⟨[], 0.0, 0.0⟩

def push (stats : RollingStats) (value : Float) : RollingStats :=
  if stats.samples.length = latencyWindow then
    let old := stats.samples.headD 0.0
    let mean := stats.mean + (value - old) / latencyWindow.toFloat
    { samples := stats.samples.tail ++ [value]
      mean := mean
      m2 := maxFloat (stats.m2 + (value - old) * (value - mean + old - stats.mean)) 0.0 }
  else
    let samples := stats.samples ++ [value]
    let delta := value - stats.mean
    let mean := stats.mean + delta / samples.length.toFloat
    { samples := samples
      mean := mean
      m2 := stats.m2 + delta * (value - mean) }

def count (stats : RollingStats) : Nat := stats.samples.length

def cv (stats : RollingStats) : Float :=
  if stats.mean ≤ 0.0 ∨ stats.samples.length < 2 then 0.0
  else (stats.m2 / (stats.samples.length - 1).toFloat).sqrt / stats.mean

end RollingStats

structure PeerStats where
  latency : RollingStats
  requestsSent : UInt32
  requestsTimedOut : UInt32
  score : Float

namespace PeerStats

def new : PeerStats := ⟨.new, 0, 0, baselineScore⟩

/-- The quotient of two `u32` is rounded to above a half just when it is above a half. -/
def hardFiltered (stats : PeerStats) : Bool :=
  hardFilterMinSamples ≤ stats.requestsSent && stats.requestsSent.toNat < 2 * stats.requestsTimedOut.toNat

def computedScore (stats : PeerStats) : Float :=
  let speedFactor :=
    if stats.latency.count = 0 then 1.0
    else clampFloat (referenceLatencyMs / maxFloat stats.latency.mean 1.0) 0.1 2.0
  let consistencyFactor :=
    if stats.latency.count < 2 then 1.0
    else
      let cv := stats.latency.cv
      1.0 / (1.0 + cv * cv)
  let loadRatio := stats.requestsSent.toFloat / loadWindow.toFloat
  let loadFactor := (-loadRatio * loadRatio).exp
  clampFloat (50.0 * speedFactor * consistencyFactor * loadFactor) 0.0 maxComputedScore

def updateScore (stats : PeerStats) : PeerStats :=
  { stats with score := if stats.hardFiltered then hardFilterFloor else stats.computedScore }

/-- What `record_request` does to a peer: at the end of the window the counters start again. -/
def request (stats : PeerStats) : PeerStats :=
  let sent := stats.requestsSent + 1
  if loadWindow ≤ sent then { stats with requestsSent := 0, requestsTimedOut := 0 }.updateScore
  else { stats with requestsSent := sent }.updateScore

def response (stats : PeerStats) (latencyMs : Float) : PeerStats :=
  { stats with latency := stats.latency.push latencyMs }.updateScore

def timeout (stats : PeerStats) : PeerStats :=
  { stats with
    latency := stats.latency.push timeoutAssumedLatencyMs
    requestsTimedOut := stats.requestsTimedOut + 1 }.updateScore

end PeerStats

structure PeerSample where
  peers : TreeMap Pubkey PeerStats

namespace PeerSample

def new : PeerSample := ⟨∅⟩

/-- The first peer of least score, in the order of the iteration. Scores that cannot be compared count as equal. -/
def worst (sample : PeerSample) (iteration : List Pubkey) : Option (Pubkey × PeerStats) :=
  Best.scan (fun a b => decide (a.2.score < b.2.score))
    (iteration.filterMap (fun pubkey => (sample.peers[pubkey]?).map (fun stats => (pubkey, stats))))

def observe (sample : PeerSample) (pubkey : Pubkey) (iteration : List Pubkey) : PeerSample :=
  if sample.peers.contains pubkey then sample
  else if maxSamplePeers ≤ sample.peers.size then
    match sample.worst iteration with
    | none => ⟨sample.peers.insert pubkey .new⟩
    | some (worst, stats) =>
      if stats.score < baselineScore then ⟨(sample.peers.erase worst).insert pubkey .new⟩ else sample
  else ⟨sample.peers.insert pubkey .new⟩

def recordRequest (sample : PeerSample) (pubkey : Pubkey) : PeerSample := ⟨sample.peers.modify pubkey .request⟩

def recordResponse (sample : PeerSample) (pubkey : Pubkey) (latencyMs : Float) : PeerSample :=
  ⟨sample.peers.modify pubkey (fun stats => stats.response latencyMs)⟩

def recordTimeout (sample : PeerSample) (pubkey : Pubkey) : PeerSample := ⟨sample.peers.modify pubkey .timeout⟩

end PeerSample

end Lightbringer.Overlay
