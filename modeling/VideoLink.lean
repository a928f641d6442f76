import VideoLink.CommandLine
import VideoLink.Config.Basic
import VideoLink.Config.Error
import VideoLink.Config.Text
import VideoLink.EventQueue.Basic
import VideoLink.EventQueue.View
import VideoLink.Fifo
import VideoLink.Flow
import VideoLink.Json.Basic
import VideoLink.Link.Channel
import VideoLink.Link.Direction
import VideoLink.Main
import VideoLink.Measure.FlowRecord
import VideoLink.Measure.Histogram
import VideoLink.Measure.Monitor
import VideoLink.Numeric.Binary64
import VideoLink.Numeric.Decimal
import VideoLink.Numeric.Places
import VideoLink.Numeric.Reading
import VideoLink.Numeric.Rounding
import VideoLink.Numeric.Shortest
import VideoLink.Packet
import VideoLink.Proofs.Calls
import VideoLink.Proofs.EventQueue.Agenda
import VideoLink.Proofs.EventQueue.Orderly
import VideoLink.Proofs.EventQueue.Returns
import VideoLink.Proofs.Measure.Balance
import VideoLink.Proofs.Measure.DelayBins
import VideoLink.Proofs.Measure.Digest
import VideoLink.Proofs.Measure.Directory
import VideoLink.Proofs.Measure.History
import VideoLink.Proofs.Measure.Interleaving
import VideoLink.Proofs.Measure.Losses
import VideoLink.Proofs.Measure.Means
import VideoLink.Proofs.Measure.Parallel
import VideoLink.Proofs.Measure.Partition
import VideoLink.Proofs.Measure.Records
import VideoLink.Proofs.Measure.Tally
import VideoLink.Proofs.Numeric.Normal
import VideoLink.Proofs.Numeric.Numerals
import VideoLink.Proofs.Numeric.Stored
import VideoLink.Proofs.Report.BitRates
import VideoLink.Proofs.Report.Document
import VideoLink.Proofs.Report.Edges
import VideoLink.Proofs.Report.Figures
import VideoLink.Proofs.Report.Tables
import VideoLink.Proofs.Session.Accounts
import VideoLink.Proofs.Session.AckBook
import VideoLink.Proofs.Session.Acknowledgments
import VideoLink.Proofs.Session.Agree
import VideoLink.Proofs.Session.Alone
import VideoLink.Proofs.Session.Apart
import VideoLink.Proofs.Session.Begins
import VideoLink.Proofs.Session.Deeds
import VideoLink.Proofs.Session.Delay
import VideoLink.Proofs.Session.Delivery
import VideoLink.Proofs.Session.Ending
import VideoLink.Proofs.Session.Frames
import VideoLink.Proofs.Session.Isolation
import VideoLink.Proofs.Session.Lane
import VideoLink.Proofs.Session.LaneEnds
import VideoLink.Proofs.Session.Ledger
import VideoLink.Proofs.Session.Meters
import VideoLink.Proofs.Session.Moves
import VideoLink.Proofs.Session.Observed
import VideoLink.Proofs.Session.Paced
import VideoLink.Proofs.Session.Packets
import VideoLink.Proofs.Session.Plans
import VideoLink.Proofs.Session.Routes
import VideoLink.Proofs.Session.Runnable
import VideoLink.Proofs.Session.Standing
import VideoLink.Proofs.Session.Start
import VideoLink.Proofs.Session.Tap
import VideoLink.Proofs.Session.Teardown
import VideoLink.Proofs.Session.Throughput
import VideoLink.Proofs.Session.Timing
import VideoLink.Proofs.Session.Video
import VideoLink.Proofs.Session.Wire
import VideoLink.Proofs.Transport.Bounds
import VideoLink.Proofs.Transport.Counters
import VideoLink.Proofs.Transport.Pieces
import VideoLink.Proofs.Transport.Pipe
import VideoLink.Proofs.Transport.Sound
import VideoLink.Proofs.Video.Offers
import VideoLink.Proofs.Video.Timetable
import VideoLink.Random.ChaCha
import VideoLink.Random.Draws
import VideoLink.Random.Gamma
import VideoLink.Random.Weibull
import VideoLink.Random.Ziggurat
import VideoLink.Random.ZigguratLayers
import VideoLink.Report.Basic
import VideoLink.Report.Json
import VideoLink.Report.Text
import VideoLink.Session.Basic
import VideoLink.Session.Build
import VideoLink.Session.Handlers
import VideoLink.Session.Notice
import VideoLink.Session.Progress
import VideoLink.Session.Work
import VideoLink.Time.Basic
import VideoLink.Time.Seconds
import VideoLink.Transport.Pieces
import VideoLink.Transport.Socket
import VideoLink.Video.FrameSizes
import VideoLink.Video.FrameSource
import VideoLink.Video.Pacer
import VideoLink.Video.Quality
import VideoLink.Video.Segments
import VideoLink.Weight
