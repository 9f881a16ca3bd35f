import CallAdmission.Call.Id
import CallAdmission.Main
import CallAdmission.Scenario.Play
import CallAdmission.Scenario.QueueStep
import CallAdmission.Proofs.Queue.Resumption
import CallAdmission.Proofs.Queue.Snapshot
import CallAdmission.Proofs.Dispatcher.Service
import CallAdmission.Proofs.Dispatcher.Lifecycle
import CallAdmission.Proofs.Dispatcher.Notification
import CallAdmission.Proofs.Dispatcher.Ceiling
import CallAdmission.Proofs.Dispatcher.Shutdown
import CallAdmission.Proofs.Dispatcher.Agreement
import CallAdmission.Proofs.Simulation.Arguments
import CallAdmission.Proofs.Simulation.Peaks
import CallAdmission.Proofs.Failure
import CallAdmission.Proofs.Simulation.Start
import CallAdmission.Proofs.Limits.Json
import CallAdmission.Proofs.Call.Id
import CallAdmission.Proofs.Call.Driving
