import QueueFair.SortedSet
import QueueFair.Redis
import QueueFair.EventKeys
import QueueFair.QueueState
import QueueFair.LuaScripts
import QueueFair.QueueRepository
import QueueFair.EventState
import QueueFair.Machine
import QueueFair.FifoQueue
import QueueFair.EventRun
import QueueFair.FifoRefinement
import QueueFair.Positions
import QueueFair.RateBucket
import QueueFair.ClockSteps
import QueueFair.RateLimit
import QueueFair.Generations
import QueueFair.ClockDisagreement
import QueueFair.LivePass
import QueueFair.Admission
import QueueFair.AdmissionGap
import QueueFair.ExactRate
import QueueFair.Pause
import QueueFair.NoStall
import QueueFair.Estimate
import QueueFair.PassExpiry
import QueueFair.Custody
import QueueFair.Admitters
import QueueFair.Accounting
import QueueFair.Stampede
import QueueFair.AdmissionLoop
import QueueFair.Pattern
import QueueFair.Validation
import QueueFair.Spelling
import QueueFair.Json
import QueueFair.Rendering
import QueueFair.Footprint
import QueueFair.Isolation
import QueueFair.PayloadText
import QueueFair.ReadCommitted
import QueueFair.Booking
import QueueFair.BoxOffice
import QueueFair.BookingInvariant
import QueueFair.NoOversell
import QueueFair.Replay
import QueueFair.Allocation
import QueueFair.Completion
import QueueFair.Serial
import QueueFair.EventAdmin
import QueueFair.BackOffice
import QueueFair.Tokens
import QueueFair.BookingView
import QueueFair.Agreement
import QueueFair.Services
import QueueFair.Sources
import QueueFair.QueueView
import QueueFair.Browser
import QueueFair.Waiting
import QueueFair.BookingAnswers
import QueueFair.Delivery
import QueueFair.GettingThrough
