import ModuleBundler.LiveUpdate.Message

/-!
# The live update channel

Messages go to everyone who has subscribed.  The channel keeps the latest
messages only; a receiver that falls behind loses the older ones and learns how
many they were.

Main results:

- Theorem {lit}`Channel.length_recent_publish`: the channel never keeps more than its capacity.
- Theorem {lit}`Channel.publish_of_stopped`: a stopped channel sends nothing.
-/

namespace ModuleBundler
namespace LiveUpdate

/-- How many messages a channel keeps. -/
def capacity : Nat := 256

/-- A channel with its receivers. -/
structure Channel where
  /-- The latest messages, the oldest first. -/
  recent : List Message := []
  /-- How many messages were sent. -/
  sent : Nat := 0
  /-- For every receiver, how many messages it has passed. -/
  receivers : List Nat := []
  stopped : Bool := false

/-- What a receiver finds in the channel. -/
structure Delivery where
  messages : List Message
  /-- How many messages were lost. -/
  lost : Nat

namespace Channel

/-- Add a receiver, which gets the messages from now on. -/
def subscribe (channel : Channel) : Nat × Channel :=
  (channel.receivers.length, { channel with receivers := channel.receivers ++ [channel.sent] })

/-- Send a message to all receivers. -/
def publish (channel : Channel) (message : Message) : Channel :=
  if channel.stopped then channel
  else
    let recent := channel.recent ++ [message]
    { channel with recent := recent.drop (recent.length - capacity), sent := channel.sent + 1 }

/-- Send an update, unless it is empty. -/
def update (channel : Channel) (assets : List UpdatedAsset) : Channel :=
  if assets.isEmpty then channel else channel.publish (.update assets)

/-- Send a failure. -/
def alert (channel : Channel) (failure : Failure) : Channel :=
  channel.publish (.ofFailure failure)

/-- Send nothing from now on. -/
def stop (channel : Channel) : Channel :=
  { channel with stopped := true }

/-- Take all messages that wait for a receiver. -/
def drain (channel : Channel) (receiver : Nat) : Delivery × Channel :=
  let seen := channel.receivers[receiver]?.getD channel.sent
  let oldest := channel.sent - channel.recent.length
  let first := max seen oldest
  (⟨channel.recent.drop (first - oldest), first - seen⟩,
    { channel with receivers := channel.receivers.set receiver channel.sent })

theorem length_recent_publish {channel : Channel} (h : channel.recent.length ≤ capacity)
    (message : Message) : (channel.publish message).recent.length ≤ capacity := by
  unfold publish
  split
  · exact h
  · simp only [List.length_drop, List.length_append, List.length_singleton]
    omega

theorem publish_of_stopped {channel : Channel} (h : channel.stopped = true) (message : Message) :
    channel.publish message = channel := by
  simp [publish, h]

end Channel
end LiveUpdate
end ModuleBundler
