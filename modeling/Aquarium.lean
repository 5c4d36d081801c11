import Aquarium.FileTree
import Aquarium.Machine.Dump
import Aquarium.Main
import Aquarium.Proofs.Grid.Rendering
import Aquarium.Proofs.Machine.Bottom
import Aquarium.Proofs.Machine.Draws
import Aquarium.Proofs.Machine.Frame
import Aquarium.Proofs.Machine.Lifecycle
import Aquarium.Proofs.Machine.Literals
import Aquarium.Proofs.Machine.Mazes
import Aquarium.Proofs.Machine.Resources
import Aquarium.Proofs.Machine.Schedules
import Aquarium.Proofs.Machine.Sources
import Aquarium.Proofs.Session.Breakpoints
import Aquarium.Proofs.Session.Budget
import Aquarium.Proofs.Session.Output
import Aquarium.Proofs.Stack.Frames
import Aquarium.Proofs.Stack.Shuffles
import Aquarium.Proofs.Grid.Extent
import Aquarium.Proofs.Grid.Histories
import Aquarium.Proofs.Machine.Routes
import Aquarium.Proofs.Number.Order
import Aquarium.Proofs.Session.Endings
import Aquarium.Proofs.Program.Echo
import Aquarium.Proofs.Program.Greeting
import Aquarium.Proofs.Session.LargerBudget
import Aquarium.Proofs.Session.SingleSteps
import Aquarium.Proofs.Number.Remainder
import Aquarium.Proofs.Number.Printed
import Aquarium.Proofs.Pointer.Journey
import Aquarium.Proofs.Number.Conversions
import Aquarium.Proofs.CommandLine.Replies
