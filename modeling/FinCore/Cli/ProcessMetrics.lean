/-
  FinCore.Cli.ProcessMetrics
  ──────────────────────────
  The measurements of one fetch and their aggregation over a session.

  Durations are 64-bit microseconds.  The printed reports are not modelled.
-/
import FinCore.Core.Types

namespace FinCore.Cli

/-! ## §1. Process usage. -/

structure ProcessSnapshot where
  userCpuUs : Int64 := 0
  systemCpuUs : Int64 := 0
  currentRssKb : Int64 := 0
  peakRssKb : Int64 := 0
  minorFaults : Int64 := 0
  majorFaults : Int64 := 0
  voluntaryContextSwitches : Int64 := 0
  involuntaryContextSwitches : Int64 := 0

structure ProcessDelta where
  userCpuUs : Int64 := 0
  systemCpuUs : Int64 := 0
  rssDeltaKb : Int64 := 0
  currentRssKb : Int64 := 0
  peakRssKb : Int64 := 0
  minorFaults : Int64 := 0
  majorFaults : Int64 := 0
  voluntaryContextSwitches : Int64 := 0
  involuntaryContextSwitches : Int64 := 0

/-- `process_delta`. -/
def processDelta (before after : ProcessSnapshot) : ProcessDelta where
  userCpuUs := after.userCpuUs - before.userCpuUs
  systemCpuUs := after.systemCpuUs - before.systemCpuUs
  rssDeltaKb := after.currentRssKb - before.currentRssKb
  currentRssKb := after.currentRssKb
  peakRssKb := after.peakRssKb
  minorFaults := after.minorFaults - before.minorFaults
  majorFaults := after.majorFaults - before.majorFaults
  voluntaryContextSwitches := after.voluntaryContextSwitches - before.voluntaryContextSwitches
  involuntaryContextSwitches :=
    after.involuntaryContextSwitches - before.involuntaryContextSwitches

/-! ## §2. One operation. -/

structure OperationMetrics where
  symbol : Symbol
  success : Bool := false
  apiCached : Bool := false
  redisCacheHit : Bool := false
  redisQuoteStored : Bool := false
  redisBookStored : Bool := false
  apiUs : Option Int64 := none
  redisReadUs : Option Int64 := none
  redisQuoteUs : Option Int64 := none
  bookBuildUs : Option Int64 := none
  redisBookUs : Option Int64 := none
  totalUs : Int64 := 0
  process : ProcessDelta := {}

/-! ## §3. A session. -/

/-- The samples of one duration, oldest first. -/
abbrev LatencySeries := List Int64

/-- `add` of an optional sample. -/
def LatencySeries.add (series : LatencySeries) : Option Int64 → LatencySeries
  | some sample => series ++ [sample]
  | none => series

structure SessionStats where
  attempts : UInt64 := 0
  successes : UInt64 := 0
  failures : UInt64 := 0
  apiCacheHits : UInt64 := 0
  apiCacheMisses : UInt64 := 0
  redisCacheHits : UInt64 := 0
  redisCacheMisses : UInt64 := 0
  redisQuoteSuccesses : UInt64 := 0
  redisQuoteFailures : UInt64 := 0
  redisBookSuccesses : UInt64 := 0
  redisBookFailures : UInt64 := 0
  measuredUserCpuUs : Int64 := 0
  measuredSystemCpuUs : Int64 := 0
  lastCurrentRssKb : Int64 := 0
  peakRssKb : Int64 := 0
  api : LatencySeries := []
  redisRead : LatencySeries := []
  apiCached : LatencySeries := []
  apiExternal : LatencySeries := []
  redisQuote : LatencySeries := []
  bookBuild : LatencySeries := []
  redisBook : LatencySeries := []
  total : LatencySeries := []
  last : Option OperationMetrics := none

namespace SessionStats

/-- A pair of counters, one for each value of `flag`, stepped when `sample` has
been taken. -/
def count (sample : Option Int64) (flag : Bool) (counters : UInt64 × UInt64) : UInt64 × UInt64 :=
  match sample, flag with
  | none, _ => counters
  | some _, true => (counters.1 + 1, counters.2)
  | some _, false => (counters.1, counters.2 + 1)

/-- `SessionStats::record`. -/
def record (metrics : OperationMetrics) (stats : SessionStats) : SessionStats :=
  let api := count metrics.apiUs metrics.apiCached (stats.apiCacheHits, stats.apiCacheMisses)
  let redisCache := count metrics.redisReadUs metrics.redisCacheHit
    (stats.redisCacheHits, stats.redisCacheMisses)
  let redisQuote := count metrics.redisQuoteUs metrics.redisQuoteStored
    (stats.redisQuoteSuccesses, stats.redisQuoteFailures)
  let redisBook := count metrics.redisBookUs metrics.redisBookStored
    (stats.redisBookSuccesses, stats.redisBookFailures)
  { attempts := stats.attempts + 1
    successes := if metrics.success then stats.successes + 1 else stats.successes
    failures := if metrics.success then stats.failures else stats.failures + 1
    apiCacheHits := api.1
    apiCacheMisses := api.2
    redisCacheHits := redisCache.1
    redisCacheMisses := redisCache.2
    redisQuoteSuccesses := redisQuote.1
    redisQuoteFailures := redisQuote.2
    redisBookSuccesses := redisBook.1
    redisBookFailures := redisBook.2
    measuredUserCpuUs := stats.measuredUserCpuUs + metrics.process.userCpuUs
    measuredSystemCpuUs := stats.measuredSystemCpuUs + metrics.process.systemCpuUs
    lastCurrentRssKb := metrics.process.currentRssKb
    peakRssKb := max stats.peakRssKb metrics.process.peakRssKb
    api := stats.api.add metrics.apiUs
    redisRead := stats.redisRead.add metrics.redisReadUs
    -- one API sample goes to one of two series
    apiCached := if metrics.apiCached then stats.apiCached.add metrics.apiUs else stats.apiCached
    apiExternal :=
      if metrics.apiCached then stats.apiExternal else stats.apiExternal.add metrics.apiUs
    redisQuote := stats.redisQuote.add metrics.redisQuoteUs
    bookBuild := stats.bookBuild.add metrics.bookBuildUs
    redisBook := stats.redisBook.add metrics.redisBookUs
    total := stats.total ++ [metrics.totalUs]
    last := some metrics }

/-- `SessionStats::reset`: every counter, series and figure starts again. -/
def reset (_ : SessionStats) : SessionStats where
  attempts := 0
  successes := 0
  failures := 0
  apiCacheHits := 0
  apiCacheMisses := 0
  redisCacheHits := 0
  redisCacheMisses := 0
  redisQuoteSuccesses := 0
  redisQuoteFailures := 0
  redisBookSuccesses := 0
  redisBookFailures := 0
  measuredUserCpuUs := 0
  measuredSystemCpuUs := 0
  lastCurrentRssKb := 0
  peakRssKb := 0
  api := []
  redisRead := []
  apiCached := []
  apiExternal := []
  redisQuote := []
  bookBuild := []
  redisBook := []
  total := []
  last := none

/-- Record the metrics in order. -/
def recordAll (stats : SessionStats) (operations : List OperationMetrics) : SessionStats :=
  operations.foldl (fun stats metrics => stats.record metrics) stats

end SessionStats

end FinCore.Cli
