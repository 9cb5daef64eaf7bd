import SingleFlight.Loader.Run
import SingleFlight.Scenario.Counting
import SingleFlight.Scenario.Report
import SingleFlight.Proofs.Steady
import SingleFlight.Proofs.Entries
import SingleFlight.Proofs.Loads
import SingleFlight.Proofs.Coupling
import SingleFlight.Proofs.Histories
import SingleFlight.Proofs.Tickets
import SingleFlight.Proofs.Registered
import SingleFlight.Proofs.Loading
import SingleFlight.Proofs.Outcomes
import SingleFlight.Proofs.Turns
import SingleFlight.Proofs.Shared
import SingleFlight.Proofs.Flights
import SingleFlight.Proofs.Sharing
import SingleFlight.Proofs.Changes
import SingleFlight.Proofs.Absorbing
import SingleFlight.Proofs.Late
import SingleFlight.Proofs.Acts
import SingleFlight.Proofs.Lookups
import SingleFlight.Proofs.Waiting
import SingleFlight.Proofs.Cancelling
import SingleFlight.Proofs.Finishing
import SingleFlight.Proofs.Facets
import SingleFlight.Proofs.Apart
import SingleFlight.Proofs.Shifts
import SingleFlight.Proofs.Independence
import SingleFlight.Proofs.Origins
import SingleFlight.Proofs.Earned
import SingleFlight.Proofs.Fetches
import SingleFlight.Proofs.Downloads
import SingleFlight.Proofs.Pledges
import SingleFlight.Proofs.Strands
import SingleFlight.Proofs.Marshalled
import SingleFlight.Proofs.Raising
import SingleFlight.Proofs.Collecting
import SingleFlight.Proofs.Rejections
import SingleFlight.Proofs.Ensuring
import SingleFlight.Proofs.Balance
import SingleFlight.Proofs.Conserved
import SingleFlight.Proofs.Lines
import SingleFlight.Proofs.Routes
import SingleFlight.Proofs.Endings
import SingleFlight.Proofs.Chains
import SingleFlight.Proofs.Orders
import SingleFlight.Proofs.Discarded
import SingleFlight.Proofs.Refusals
import SingleFlight.Proofs.Causes
import SingleFlight.Proofs.Deadlines
import SingleFlight.Proofs.Adrift
import SingleFlight.Proofs.Rendering
import SingleFlight.Proofs.Addresses
import SingleFlight.Proofs.Spelling
import SingleFlight.Proofs.Environments
import SingleFlight.Proofs.Windows
import SingleFlight.Proofs.Agreement
