import Realm.Main
import Realm.Metrics
import Realm.Proofs.Area
import Realm.Proofs.Area.Enumeration
import Realm.Proofs.Coord
import Realm.Proofs.Coord.Numbering
import Realm.Proofs.Directory.Interleaving
import Realm.Proofs.Grid.Ageing
import Realm.Proofs.Grid.Contents
import Realm.Proofs.Grid.Counters
import Realm.Proofs.Grid.Holders
import Realm.Proofs.Offsets
import Realm.Proofs.Outskirts
import Realm.Proofs.Random.Draw
import Realm.Proofs.Roster.Listing
import Realm.Proofs.Roster.Staleness
import Realm.Proofs.Roster.Sweeping
import Realm.Proofs.World.Journey
import Realm.Proofs.World.Leading
import Realm.Proofs.World.Loop
import Realm.Proofs.World.Maps
import Realm.Proofs.World.Mirror
import Realm.Proofs.World.Outlook
import Realm.Proofs.World.Passages
import Realm.Proofs.World.Settling
import Realm.Proofs.World.Tour
import Realm.Proofs.World.Whereabouts
import Realm.Proofs.World.Workers
import Realm.Proofs.WorldMap.Addressing
import Realm.Proofs.WorldMap.Agreement
import Realm.Proofs.WorldMap.Arrivals
import Realm.Proofs.WorldMap.Batches
import Realm.Proofs.WorldMap.Bystanders
import Realm.Proofs.WorldMap.Chronicle
import Realm.Proofs.WorldMap.Consistency
import Realm.Proofs.WorldMap.Coverage
import Realm.Proofs.WorldMap.Custody
import Realm.Proofs.WorldMap.Eviction
import Realm.Proofs.WorldMap.Housekeeping
import Realm.Proofs.WorldMap.Index
import Realm.Proofs.WorldMap.LifeCycle
import Realm.Proofs.WorldMap.Moves
import Realm.Proofs.WorldMap.Range
import Realm.Proofs.WorldMap.Reach
import Realm.Proofs.WorldMap.Refusals
import Realm.Proofs.WorldMap.Register
import Realm.Proofs.WorldMap.Reporting
import Realm.Proofs.WorldMap.Tasks
import Realm.Proofs.WorldMap.Turnover
import Realm.Proofs.WorldMap.Writes
