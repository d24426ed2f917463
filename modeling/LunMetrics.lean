import LunMetrics.Order
import LunMetrics.Text.Basic
import LunMetrics.Text.Blank
import LunMetrics.Text.Digits
import LunMetrics.Text.Printable
import LunMetrics.Text.Quoted
import LunMetrics.Text.Utf8
import LunMetrics.Number.Binary64
import LunMetrics.Number.Shortest
import LunMetrics.Path
import LunMetrics.FileTree.Basic
import LunMetrics.FileTree.Walk
import LunMetrics.FileTree.Edit
import LunMetrics.FileTree.Snapshot
import LunMetrics.Sysfs
import LunMetrics.Level
import LunMetrics.Backstore.Basic
import LunMetrics.Backstore.Fault
import LunMetrics.Backstore.Resolve
import LunMetrics.Topology.Basic
import LunMetrics.Topology.Layout
import LunMetrics.Topology.Discovery
import LunMetrics.Statistics.Basic
import LunMetrics.Statistics.Reading
import LunMetrics.Event
import LunMetrics.Logged
import LunMetrics.Metric.Descriptor
import LunMetrics.Metric.Family
import LunMetrics.Sink.Basic
import LunMetrics.Sink.Families
import LunMetrics.Sink.Recorder
import LunMetrics.Sink.SampleQueue
import LunMetrics.Cycle.Emission
import LunMetrics.Cycle.Walk
import LunMetrics.Cycle.Run
import LunMetrics.Scrape
import LunMetrics.Exposition
import LunMetrics.CommandLine.Arguments
import LunMetrics.CommandLine.ListenAddress
import LunMetrics.CommandLine.Session
import LunMetrics.Main
import LunMetrics.Proofs.Outcome
import LunMetrics.Proofs.Text.CodePointOrder
import LunMetrics.Proofs.FileTree.Listing
import LunMetrics.Proofs.Topology.Enumeration
import LunMetrics.Proofs.Topology.Exports
import LunMetrics.Proofs.Backstore.Resolution
import LunMetrics.Proofs.Cycle.Quiet
import LunMetrics.Proofs.Cycle.Steps
import LunMetrics.Proofs.Cycle.Delivery
import LunMetrics.Proofs.Cycle.Integrity
import LunMetrics.Proofs.Cycle.Accounting
import LunMetrics.Proofs.Sink.Families
import LunMetrics.Proofs.Scrape.Survival
import LunMetrics.Proofs.Path.Descent
import LunMetrics.Proofs.Path.Normal
import LunMetrics.Proofs.Backstore.Link
import LunMetrics.Proofs.Backstore.Contract
import LunMetrics.Proofs.Sysfs.Footprint
import LunMetrics.Proofs.Cycle.Footprint
import LunMetrics.Proofs.Topology.Placement
import LunMetrics.Proofs.Cycle.Isolation
import LunMetrics.Proofs.Cycle.Attribution
import LunMetrics.Proofs.Cycle.Plan
import LunMetrics.Proofs.Cycle.Limits
import LunMetrics.Proofs.Number.Rounding
import LunMetrics.Proofs.Cycle.Growth
import LunMetrics.Proofs.Cycle.Insertion
import LunMetrics.Proofs.Metric.Names
import LunMetrics.Proofs.Scrape.Regrouping
import LunMetrics.Proofs.Cycle.Sends
import LunMetrics.Proofs.Sink.Exchange
import LunMetrics.Proofs.Backstore.Devices
import LunMetrics.Proofs.Backstore.LeastDevice
import LunMetrics.Proofs.Cycle.Reordering
import LunMetrics.Proofs.Exposition.Reading
import LunMetrics.Proofs.Scrape.Legibility
import LunMetrics.Proofs.Path.Collapse
import LunMetrics.Proofs.Backstore.Grammar
import LunMetrics.Proofs.Cycle.HandOver
import LunMetrics.Proofs.Sink.Filing
import LunMetrics.Proofs.Sink.Namespaces
import LunMetrics.Proofs.Number.HalfEven
import LunMetrics.Proofs.Text.Utf8
import LunMetrics.Proofs.Text.Blank
import LunMetrics.Proofs.FileTree.Contents
import LunMetrics.Proofs.Text.Numerals
import LunMetrics.Proofs.Sysfs.Attributes
import LunMetrics.Proofs.Statistics.Reading
import LunMetrics.Proofs.CommandLine.ListenAddress
