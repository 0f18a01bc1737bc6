import TileCourse.Main
import TileCourse.Catalog.Load
import TileCourse.Program.Printer
import TileCourse.Storage.Memory
import TileCourse.Proofs.Json.Decoding
import TileCourse.Proofs.Program.RoundTrip
import TileCourse.Proofs.Simulation.Budget
import TileCourse.Proofs.Program.Wire
import TileCourse.Proofs.Progress.Wire
import TileCourse.Proofs.Classroom.Hydration
import TileCourse.Proofs.Decimal.Middles
import TileCourse.Proofs.Simulation.Admission
import TileCourse.Proofs.Classroom.Operations
import TileCourse.Proofs.Classroom.Retention
import TileCourse.Proofs.Classroom.Awards
import TileCourse.Proofs.Classroom.Isolation
import TileCourse.Proofs.Program.Derivation
import TileCourse.Proofs.Json.Brackets
import TileCourse.Proofs.Program.Exchange
import TileCourse.Proofs.Classroom.Completions
import TileCourse.Proofs.Classroom.Views
import TileCourse.Proofs.Simulation.Buried
import TileCourse.Proofs.Classroom.Filings
import TileCourse.Proofs.Json.Naming
import TileCourse.Proofs.Catalog.Wire
import TileCourse.Proofs.Progress.Exchange
import TileCourse.Proofs.Simulation.Unrolling
import TileCourse.Proofs.Simulation.Counts
import TileCourse.Proofs.Simulation.Depth
import TileCourse.Proofs.Catalog.Unlisted
import TileCourse.Proofs.Program.Places
import TileCourse.Proofs.Program.Relayout
import TileCourse.Proofs.Catalog.Reordered
import TileCourse.Proofs.Simulation.Survival
import TileCourse.Proofs.Text.LineColumn
import TileCourse.Proofs.Classroom.Commuting
import TileCourse.Proofs.Storage.Shelf
import TileCourse.Proofs.Simulation.Tiles
