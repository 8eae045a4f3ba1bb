import FlowAtlas.Analysis.Basic
import FlowAtlas.Service.Augmentation
import FlowAtlas.Service.Client

/-! What a run takes from outside: a directory, the time, an environment and a way to send requests. -/

namespace FlowAtlas

structure Surroundings where
  entries : Except PathFault (List Tree)
  moment : Timestamp
  environment : List (String × String) := []
  send : Request → Except Failure Reply

namespace Surroundings

def walk (surroundings : Surroundings) (config : Config) (root : String) : Walk :=
  Walk.ofEntries config root surroundings.entries

def extraction (surroundings : Surroundings) (config : Config) (root : String) : Extraction :=
  Extraction.ofWalk (surroundings.walk config root)

def graph (surroundings : Surroundings) (config : Config) (root : String) : CallGraph :=
  (Landscape.ofExtraction (surroundings.extraction config root)).graph

def analysis (surroundings : Surroundings) (config : Config) (root : String) : Except SelectionFault Analysis :=
  Analysis.ofExtraction config root (surroundings.extraction config root) surroundings.moment

def serviceOf (surroundings : Surroundings) (client : Client) : Service := fun question =>
  client.complete surroundings.send question.prompt question.seconds

def service? (surroundings : Surroundings) (options : ServiceOptions) : Option Service :=
  (Client.ofOptions? options surroundings.environment).map surroundings.serviceOf

def draw (surroundings : Surroundings) (options : ServiceOptions) (sink : Sink) (analysis : Analysis) :
    Fields.Checked Augmentation :=
  augment options (surroundings.service? options) sink analysis.summary analysis.diagramText

end Surroundings

end FlowAtlas
