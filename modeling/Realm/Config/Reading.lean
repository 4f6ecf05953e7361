import Realm.Config.Basic
import Realm.Yaml.Value

/-! # Reading a configuration

A mapping with a value for each setting. Settings without a value keep their defaults, unknown ones
are skipped. -/

namespace Realm

open Yaml (Node)

def MapConfig.ofNode? (n : Node) : Option MapConfig := do
  let entries ← n.entries?
  let base : MapConfig := {}
  let gridUnload ← Node.field? entries "grid_unload" base.gridUnload Node.bool?
  let unloadDelay ← Node.field? entries "grid_unload_delay_ms" base.unloadDelay fun v =>
    (v.word? 64).map UInt64.ofNat
  let visibility ← Node.field? entries "visibility_distance" base.visibility fun v =>
    v.double?.map Binary.narrow
  let maxTasks ← Node.field? entries "max_tasks_per_update" base.maxTasks fun v =>
    (v.word? 64).map UInt64.ofNat
  return { gridUnload, unloadDelay, visibility, maxTasks }

namespace Config

def updateThreads? (n : Node) : Option (Option UInt64) := do
  Node.field? (← n.entries?) "map_update_threads" none fun v =>
    (v.word? 64).map fun k => some (.ofNat k)

def ofNode? (n : Node) : Option Config := do
  let entries ← n.entries?
  let base : Config := {}
  let tickRate ← Node.field? entries "tick_rate" base.tickRate fun v =>
    (v.word? 64).map UInt64.ofNat
  let mapIds ← Node.field? entries "map_ids" base.mapIds fun v => do
    (← v.items?).mapM fun item => (item.word? 32).map UInt32.ofNat
  let maps ← Node.field? entries "maps" base.maps MapConfig.ofNode?
  let updateThreads ← Node.field? entries "thread_pools" base.updateThreads updateThreads?
  let metricsPort ← Node.field? entries "metrics_listen_port" base.metricsPort <|
    Node.optional? fun v => (v.word? 16).map UInt16.ofNat
  let logFilter ← Node.field? entries "log_filter" base.logFilter (Node.optional? Node.text?)
  let population ← Node.field? entries "demo_population" base.population fun v =>
    (v.word? 64).map UInt64.ofNat
  let maxTicks ← Node.field? entries "max_ticks" base.maxTicks <|
    Node.optional? fun v => (v.word? 64).map UInt64.ofNat
  return { tickRate, mapIds, maps, updateThreads, metricsPort, logFilter, population, maxTicks }

/-- Reads and checks the settings in a text. -/
def ofText (text : String) : Except Fault Config := do
  match (Node.ofString? text).bind ofNode? with
  | none => throw (.config .unreadable)
  | some c =>
    c.validate.mapError .config
    return c

/-- Reads and checks the settings in a file, given its contents or why there are none. -/
def ofFile (contents : Except FileFault ByteArray) : Except Fault Config := do
  let bytes ← contents.mapError .file
  match String.fromUTF8? bytes with
  | none => throw (.file .notText)
  | some text => ofText text

end Config
end Realm
