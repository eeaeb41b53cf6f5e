import Lookback.Main
import Lookback.Time.Loops
import Lookback.Proofs.Cycle
import Lookback.Proofs.Cycle.Moves
import Lookback.Proofs.Cycle.Walks
import Lookback.Proofs.Ring.Past
import Lookback.Proofs.Ring.Lookup
import Lookback.Proofs.Ring.Copying
import Lookback.Proofs.History.Edits
import Lookback.Proofs.History.Slots
import Lookback.Proofs.History.Rollover
import Lookback.Proofs.Ring.Reading
import Lookback.Proofs.History.Windows
import Lookback.Proofs.History.Views
import Lookback.Proofs.History.Answers
import Lookback.Proofs.History.Cursors
import Lookback.Proofs.Session
import Lookback.Proofs.Session.Order
import Lookback.Proofs.Session.Continuous
import Lookback.Proofs.Sampler.Holes
import Lookback.Proofs.Sampler.Tally
import Lookback.Proofs.Sampler.Accounts
import Lookback.Proofs.Sampler.Polls
import Lookback.Proofs.Sampler.Totals
import Lookback.Proofs.Sampler.Conservation
import Lookback.Proofs.Sampler.Audience
import Lookback.Proofs.Sampler.Duplicates
import Lookback.Proofs.History.Backlog
import Lookback.Proofs.Sampler.Drains
import Lookback.Proofs.Sampler.Draining
import Lookback.Proofs.Sampler.Overflow
import Lookback.Proofs.Sampler.Rebatching
import Lookback.Proofs.Sampler.Starvation
import Lookback.Proofs.Sampler.Steps
import Lookback.Proofs.Sampler.Finals
import Lookback.Proofs.History.Batches
import Lookback.Proofs.History.Unread
import Lookback.Proofs.History.Snapshots
import Lookback.Proofs.History.Fetching
import Lookback.Time.Threads
import Lookback.Proofs.Time.Families
import Lookback.Proofs.Time.Steps
import Lookback.Proofs.Time.KillSwitch
import Lookback.Proofs.Time.Ticks
import Lookback.Proofs.Sampler.Courses
import Lookback.Proofs.Sampler.Producing
import Lookback.Proofs.Settings.Omissions
import Lookback.Proofs.Settings.Mentions
import Lookback.Proofs.Settings.Given
import Lookback.Proofs.Settings.Variables
import Lookback.Proofs.Settings.Agreement
import Lookback.Proofs.Settings.Documents
import Lookback.Proofs.Settings.Precedence
