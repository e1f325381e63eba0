import RadioSpectrum.Flowgraph.Executor
import RadioSpectrum.Main
import RadioSpectrum.Proofs.Capture.RoundTrip
import RadioSpectrum.Proofs.CommandLine.Feeding
import RadioSpectrum.Proofs.Control.Mirror
import RadioSpectrum.Proofs.Control.Notices
import RadioSpectrum.Proofs.Flowgraph.Attempts
import RadioSpectrum.Proofs.Flowgraph.Decimation
import RadioSpectrum.Proofs.Flowgraph.Faults
import RadioSpectrum.Proofs.Flowgraph.Order
import RadioSpectrum.Proofs.Flowgraph.ReadBack
import RadioSpectrum.Proofs.Flowgraph.Rebuild
import RadioSpectrum.Proofs.Flowgraph.Tuning
import RadioSpectrum.Proofs.Flowgraph.Wakeups
import RadioSpectrum.Proofs.Frontend.RoundTrip
import RadioSpectrum.Proofs.Parameter.Projection
import RadioSpectrum.Proofs.Readership
import RadioSpectrum.Proofs.SampleRing.Queue
import RadioSpectrum.Proofs.Settings.RoundTrip
import RadioSpectrum.Proofs.Spectrum.Independence
import RadioSpectrum.Proofs.Spectrum.Labels
import RadioSpectrum.Proofs.Spectrum.Listing
import RadioSpectrum.Proofs.Spectrum.Plateaus
import RadioSpectrum.Proofs.Spectrum.View
import RadioSpectrum.StreamError
