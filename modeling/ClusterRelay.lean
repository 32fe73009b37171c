import ClusterRelay.Main
import ClusterRelay.CommandLine.Request
import ClusterRelay.Rehearsal.Errand
import ClusterRelay.Rehearsal.Exchange
import ClusterRelay.Backlog.Handoff
import ClusterRelay.Proofs.Targets
import ClusterRelay.Proofs.Moves
import ClusterRelay.Proofs.Custody
import ClusterRelay.Proofs.Attempts
import ClusterRelay.Proofs.Books
import ClusterRelay.Proofs.Codec
import ClusterRelay.Proofs.Sessions
import ClusterRelay.Proofs.Reconnects
import ClusterRelay.Proofs.Canonical
import ClusterRelay.Proofs.Rounds
import ClusterRelay.Proofs.Endurance
import ClusterRelay.Wire.Source
import ClusterRelay.Proofs.Stopping
import ClusterRelay.Proofs.Admission
import ClusterRelay.Proofs.Readings
import ClusterRelay.Proofs.Peers
import ClusterRelay.Proofs.Truncations
import ClusterRelay.Proofs.DropOldest
import ClusterRelay.Proofs.Wakeups
import ClusterRelay.Proofs.Vigilance
import ClusterRelay.Proofs.Checks
import ClusterRelay.Proofs.Calls
import ClusterRelay.Proofs.Service
import ClusterRelay.Proofs.Outlets
import ClusterRelay.Proofs.FanOut
import ClusterRelay.Proofs.Secrecy
import ClusterRelay.Proofs.Tokens
import ClusterRelay.Proofs.Documents
import ClusterRelay.Proofs.Records
import ClusterRelay.Proofs.Endings
import ClusterRelay.Proofs.InputLines
import ClusterRelay.Proofs.Inputs
import ClusterRelay.Proofs.LateFrames
import ClusterRelay.Proofs.TargetTexts
import ClusterRelay.Proofs.Destinations
import ClusterRelay.Proofs.Backoffs
import ClusterRelay.Proofs.ConfiguredDelays
import ClusterRelay.Proofs.Delimited
import ClusterRelay.Proofs.Verdicts
